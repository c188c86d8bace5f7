import Isofs.Daemon.SearchEffects
import Isofs.Find.Replies

/-!
# What a request replies

The code and the data buffer with which the daemon answers a search or a query of information, by
the search that it stores entries of and by the entry that it is about.
-/

namespace Isofs.Daemon

open Proc

/-- The entry that a query is about, if there is one. -/
def State.queried (d : State) (env : Env) (q : Request) : Call → Option IsoDirEntry
  | .fileInfo => (d.openFiles.objects q.pOpenFileData).map OpenFileData.isoEntry
  | .pathInfo =>
    if badPath q.szName then none
    else do
      let node ← d.server.volumes.objects q.pVolData
      let w ← Isofs.isoQueryIsoEntryFromPath node.vol.toVolData env.sectorStack env.pos
        (q.szName.drop 2)
      w.result
  | _ => none

/-- The search that is set up in a directory with entries. -/
def searchOf (env : Env) (q : Request) :
    Option (Except ApiRet (List IsoDirEntry) × ℕ) → Option SearchData
  | some (.ok entries, _) =>
    if entries = [] then none else some (newSearch env.toFindEnv q entries)
  | _ => none

/-- The search whose entries a request stores, if it gets there. -/
def State.searched (d : State) (env : Env) (q : Request) : Call → Option SearchData
  | .findFirst =>
    if checkFindFirst env.toFindEnv q ≠ .NO_ERROR then none
    else do
      let node ← d.server.volumes.objects q.pVolData
      searchOf env q (searchedDir node.vol.toVolData env.sectorStack env.pos
        (splitPath (q.szName.drop 2)).1)
  | .findNext => (d.searches.objects q.pSearchData).map SearchNode.data
  | .findFromName =>
    if verifyString q.szName CCHMAXPATH then none
    else (d.searches.objects q.pSearchData).map SearchNode.data
  | _ => none

/-- The objects that a request uses are there, and its volume has a character set that the daemon
knows. -/
structure Usable (c : Core) (r : Incoming) : Prop where
  ready : Ready c r
  ucsLevel : ∀ node, c.volumes r.request.pVolData = some node → node.vol.ucsLevel ≤ 3

/-- The request is answered with the code `rc` and the data buffer `m`. -/
structure Replies (d : State) (r : Incoming) (rc : ApiRet) (m : Memory) : Prop where
  outcome : (serve d r).1 = .ret rc
  pData : (serve d r).2.pData = m
  oError : (serve d r).2.request.oError = r.request.oError

section Handlers

variable {d : State} {q : Request} {m : Memory} {env : Env}

theorem Replies.of_ends {r : Incoming} {rc : ApiRet}
    (h : Ends (handleRequest r.env r.call) (fun _ _ => False)
      (fun o s => o = .ret rc ∧ s.pData = m ∧ s.request.oError = r.request.oError)
      { d with request := r.request, pData := r.pData }) : Replies d r rc m := by
  obtain ⟨houtcome, hdata, herror⟩ := Ends.run h
  exact ⟨houtcome, hdata, herror⟩

/-! ### Queries -/

/-- The code of a query by a path that leads to no entry. -/
def pathError (q : Request) : ApiRet :=
  if badPath q.szName then .ERROR_INVALID_PARAMETER else .ERROR_PATH_NOT_FOUND

theorem fileInfo_replies {e : IsoDirEntry} (h : Usable d.core ⟨.fileInfo, q, m, env⟩)
    (hfound : d.queried env q .fileInfo = some e) :
    Replies d ⟨.fileInfo, q, m, env⟩
      (doFileInfo q.fsFlag q.usLevel q.cbData env.stack m e).1
      (doFileInfo q.fsFlag q.usLevel q.cbData env.stack m e).2 := by
  obtain ⟨file, hfile, rfl⟩ := Option.map_eq_some_iff.mp hfound
  refine Replies.of_ends (Ends.bind (Ends.read ?_))
  refine Ends.bind (access_ends State.openFiles (fun hdead => absurd ⟨file, hfile⟩ hdead)
    fun file' hfile' => ?_)
  obtain rfl := Option.some.inj (hfile.symm.trans hfile')
  refine Ends.bind (access_ends volumes (fun hdead => absurd h.ready.2 hdead) fun _ _ => ?_)
  refine Ends.bind (Ends.read (Ends.bind (Ends.update ?_)))
  exact done_ends ⟨rfl, rfl, rfl⟩

/-- The file of a query is there. -/
theorem queried_fileInfo (h : Usable d.core ⟨.fileInfo, q, m, env⟩) :
    ∃ e, d.queried env q .fileInfo = some e := by
  obtain ⟨⟨n, hn⟩, -⟩ := h.ready
  obtain ⟨file, hfile, -⟩ := Option.map_eq_some_iff.mp hn
  exact ⟨file.isoEntry, Option.map_eq_some_iff.mpr ⟨file, hfile, rfl⟩⟩

/-- A query by a path, from what the walk along the path finds. -/
theorem pathInfo_replies (h : Usable d.core ⟨.pathInfo, q, m, env⟩) :
    (∀ e, d.queried env q .pathInfo = some e →
      Replies d ⟨.pathInfo, q, m, env⟩
        (doFileInfo q.fsFlag q.usLevel q.cbData env.stack m e).1
        (doFileInfo q.fsFlag q.usLevel q.cbData env.stack m e).2) ∧
    (d.queried env q .pathInfo = none → Replies d ⟨.pathInfo, q, m, env⟩ (pathError q) m) := by
  obtain ⟨node, hnode⟩ := h.ready
  have hvol : d.server.volumes.objects q.pVolData = some node := hnode
  have hqueried : d.queried env q .pathInfo =
      if badPath q.szName then none
      else (Isofs.isoQueryIsoEntryFromPath node.vol.toVolData env.sectorStack env.pos
        (q.szName.drop 2)).bind (·.result) := by
    rw [State.queried, hvol]
    rfl
  by_cases hbad : badPath q.szName = true
  · rw [hqueried, if_pos hbad, pathError, if_pos hbad]
    refine ⟨nofun, fun _ => Replies.of_ends (Ends.bind (Ends.read ?_))⟩
    exact Ends.bind (Ends.onlyIf (fun _ => done_ends ⟨rfl, rfl, rfl⟩) (absurd hbad))
  rw [hqueried, if_neg hbad, pathError, if_neg hbad]
  -- the handler up to the walk
  have hends {rc : ApiRet} {m' : Memory}
      (hnothing : ∀ w, Isofs.isoQueryIsoEntryFromPath node.vol.toVolData env.sectorStack env.pos
          (q.szName.drop 2) = some w → w.result = none → rc = .ERROR_PATH_NOT_FOUND ∧ m' = m)
      (hentry : ∀ w e, Isofs.isoQueryIsoEntryFromPath node.vol.toVolData env.sectorStack env.pos
          (q.szName.drop 2) = some w → w.result = some e →
        rc = (doFileInfo q.fsFlag q.usLevel q.cbData env.stack m e).1 ∧
          m' = (doFileInfo q.fsFlag q.usLevel q.cbData env.stack m e).2) :
      Replies d ⟨.pathInfo, q, m, env⟩ rc m' := by
    refine Replies.of_ends (Ends.bind (Ends.read ?_))
    refine Ends.bind (Ends.onlyIf (fun h => absurd h hbad) fun _ => ?_)
    refine Ends.bind (access_ends volumes (fun hdead => absurd ⟨node, hvol⟩ hdead)
      fun node' hnode' => ?_)
    obtain rfl := Option.some.inj (hvol.symm.trans hnode')
    refine Ends.bind (isoQueryIsoEntryFromPath_ends
      (fun hucs => absurd (h.ucsLevel node hnode) (Nat.not_le.mpr hucs))
      (fun w nodes hwalk hresult hnodes => ?_) fun w e n nodes hwalk hresult hfree hnodes => ?_)
    · obtain ⟨rfl, rfl⟩ := hnothing w hwalk hresult
      exact done_ends ⟨rfl, rfl, rfl⟩
    · obtain ⟨rfl, rfl⟩ := hentry w e hwalk hresult
      refine Ends.bind (Ends.read (Ends.bind (Ends.update ?_)))
      exact @freeAndReturn_ends { d with request := q, pData := _ } _ n nodes _ _ hfree hnodes
        fun _ _ => ⟨rfl, rfl, rfl⟩
  constructor
  · intro e hfound
    refine hends (fun w hwalk hresult => ?_) fun w e' hwalk hresult => ?_
    · rw [hwalk, Option.bind_some, hresult] at hfound
      cases hfound
    · rw [hwalk, Option.bind_some, hresult] at hfound
      cases hfound
      exact ⟨rfl, rfl⟩
  · intro hnone
    refine hends (fun _ _ _ => ⟨rfl, rfl⟩) fun w e hwalk hresult => ?_
    rw [hwalk, Option.bind_some, hresult] at hnone
    cases hnone

/-- The code of a query, and the data buffer that held `m` behind it. -/
def State.answer (d : State) (env : Env) (q : Request) (call : Call) (m : Memory) :
    ApiRet × Memory :=
  (d.queried env q call).elim (pathError q, m)
    fun e => doFileInfo q.fsFlag q.usLevel q.cbData env.stack m e

/-- A request that sets or asks for information. -/
def IsQuery (call : Call) : Prop := call = .fileInfo ∨ call = .pathInfo

theorem query_replies {call : Call} (hcall : IsQuery call)
    (h : Usable d.core ⟨call, q, m, env⟩) :
    Replies d ⟨call, q, m, env⟩ (d.answer env q call m).1 (d.answer env q call m).2 := by
  rcases hcall with rfl | rfl
  · obtain ⟨e, he⟩ := queried_fileInfo h
    rw [State.answer, he]
    exact fileInfo_replies h he
  · rw [State.answer]
    cases he : d.queried env q .pathInfo with
    | none => exact (pathInfo_replies h).2 he
    | some e => exact (pathInfo_replies h).1 e he

/-! ### Searches -/

/-- A search that is continued is there. -/
theorem exists_search {p : Ptr} (h : Live d.core.searches p) :
    ∃ data, (d.searches.objects p).map SearchNode.data = some data := by
  obtain ⟨ns, hns⟩ := h
  obtain ⟨node, hnode, -⟩ := Option.map_eq_some_iff.mp hns
  exact ⟨node.data, Option.map_eq_some_iff.mpr ⟨node, hnode, rfl⟩⟩

theorem findMore_replies {r : Incoming} {data : SearchData}
    (hsearch : (d.searches.objects r.request.pSearchData).map SearchNode.data = some data)
    {s : State} (hs : s.searches = d.searches) (hrequest : s.request = r.request)
    (hdata : s.pData = r.pData) :
    Ends (findMore r.env r.request) (fun _ _ => False) (fun o s' =>
      o = .ret (storeMatches r.env.stack data r.pData r.request).rc ∧
        s'.pData = (storeMatches r.env.stack data r.pData r.request).pData ∧
        s'.request.oError = r.request.oError) s := by
  obtain ⟨node, hnode, rfl⟩ := Option.map_eq_some_iff.mp hsearch
  rw [← hs] at hnode
  refine Ends.bind (access_ends State.searches (fun hdead => absurd ⟨node, hnode⟩ hdead)
    fun node' hnode' => ?_)
  obtain rfl := Option.some.inj (hnode.symm.trans hnode')
  refine Ends.bind (Ends.read (Ends.bind (Ends.bind (Ends.update (Ends.bind (Ends.update
    (Ends.update ?_)))))))
  rw [hdata]
  refine done_ends ⟨rfl, rfl, ?_⟩
  show s.request.oError = r.request.oError
  rw [hrequest]

/-- `fsFindFirst` replies what `fsFindFirst` over values does. -/
theorem fsFindFirst_replies (h : Usable d.core ⟨.findFirst, q, m, env⟩) :
    ∃ node reply, d.server.volumes.objects q.pVolData = some node ∧
      Isofs.fsFindFirst env.toFindEnv node env.pos m q = some reply ∧
      Replies d ⟨.findFirst, q, m, env⟩ reply.rc reply.pData := by
  have hends : Ends (fsFindFirst env) (fun _ _ => False)
      (fun o s' => ∃ node reply, d.server.volumes.objects q.pVolData = some node ∧
        Isofs.fsFindFirst env.toFindEnv node env.pos m q = some reply ∧
        o = .ret reply.rc ∧ s'.pData = reply.pData ∧ s'.request.oError = q.oError)
      { d with request := q, pData := m } := by
    refine fsFindFirst_ends rfl (fun hdead => absurd h.ready hdead)
      (fun node s' hnode hucs => absurd (h.ucsLevel node hnode) (Nat.not_le.mpr hucs))
      fun node reply s' hnode hreply hleft => ?_
    exact ⟨node, reply, hnode, hreply, rfl, hleft.pData, hleft.oError⟩
  obtain ⟨node, reply, hnode, hreply, houtcome, hdata, herror⟩ := Ends.run hends
  exact ⟨node, reply, hnode, hreply, houtcome, hdata, herror⟩

/-- What a search that gets to its directory replies, and the code of one that does not. -/
theorem fsFindFirst_searched {node : VolNode}
    (hnode : d.server.volumes.objects q.pVolData = some node) :
    (∀ data, d.searched env q .findFirst = some data → ∀ m reply,
      Isofs.fsFindFirst env.toFindEnv node env.pos m q = some reply →
      reply.rc = (storeMatches env.stack data m q).rc ∧
        reply.pData = (storeMatches env.stack data m q).pData) ∧
    (d.searched env q .findFirst = none → ∃ rc, ¬ Stores rc ∧ ∀ m reply,
      Isofs.fsFindFirst env.toFindEnv node env.pos m q = some reply → reply.rc = rc) := by
  -- a request that is refused has no search
  by_cases hcheck : checkFindFirst env.toFindEnv q = .NO_ERROR
  swap
  · rw [State.searched, if_pos hcheck]
    refine ⟨fun data hdata => ?_, fun _ =>
      ⟨checkFindFirst env.toFindEnv q, ?_, fun m reply hreply => ?_⟩⟩
    · cases hdata
    · exact not_or.mpr ⟨hcheck, (checkFindFirst_ne env.toFindEnv q).1⟩
    · rw [fsFindFirst_of_check rfl hcheck] at hreply
      cases hreply
      rfl
  have hsearched : d.searched env q .findFirst = searchOf env q (searchedDir node.vol.toVolData
      env.sectorStack env.pos (splitPath (q.szName.drop 2)).1) := by
    rw [State.searched, if_neg (not_not.mpr hcheck), hnode]
    rfl
  have hpure (m : Memory) : Isofs.fsFindFirst env.toFindEnv node env.pos m q =
      (searchedDir node.vol.toVolData env.sectorStack env.pos
        (splitPath (q.szName.drop 2)).1).map (findFirstReply env.toFindEnv node m q) :=
    fsFindFirst_of_ok hcheck
  rw [hsearched]
  cases hdir : searchedDir node.vol.toVolData env.sectorStack env.pos
    (splitPath (q.szName.drop 2)).1 with
  | none =>
    refine ⟨fun data hdata => ?_, fun _ =>
      ⟨.ERROR_FILE_NOT_FOUND, by decide, fun m reply hreply => ?_⟩⟩
    · cases hdata
    · rw [hpure, hdir] at hreply
      cases hreply
  | some found =>
    obtain ⟨rc | entries, pos⟩ := found
    · -- the path leads to no directory
      obtain rfl := searchedDir_error hdir
      refine ⟨fun data hdata => ?_, fun _ =>
        ⟨.ERROR_PATH_NOT_FOUND, by decide, fun m reply hreply => ?_⟩⟩
      · cases hdata
      · rw [hpure, hdir] at hreply
        cases hreply
        rfl
    · by_cases hempty : entries = []
      · subst hempty
        refine ⟨fun data hdata => ?_, fun _ =>
          ⟨.ERROR_FILE_NOT_FOUND, by decide, fun m reply hreply => ?_⟩⟩
        · cases hdata
        · rw [hpure, hdir] at hreply
          cases hreply
          rfl
      · rw [searchOf, if_neg hempty]
        refine ⟨fun data hdata m reply hreply => ?_, fun hnone => ?_⟩
        · cases hdata
          rw [hpure, hdir] at hreply
          obtain rfl := Option.some.inj hreply
          rw [findFirstReply, Isofs.findFirstIn, if_neg hempty]
          dsimp only
          split
          · exact ⟨rfl, rfl⟩
          · exact ⟨rfl, rfl⟩
        · cases hnone

/-- A request that starts or continues a search. -/
def IsSearch (call : Call) : Prop :=
  call = .findFirst ∨ call = .findNext ∨ call = .findFromName

/-- A request replies what the call on its search does, or a code with which no data goes back. -/
theorem search_replies {call : Call} (hcall : IsSearch call)
    (h : ∀ m, Usable d.core ⟨call, q, m, env⟩) :
    (∀ data, d.searched env q call = some data → ∀ m, Replies d ⟨call, q, m, env⟩
      (storeMatches env.stack data m q).rc (storeMatches env.stack data m q).pData) ∧
    (d.searched env q call = none → ∃ rc, ¬ Stores rc ∧
      ∀ m, ∃ m', Replies d ⟨call, q, m, env⟩ rc m') := by
  rcases hcall with rfl | rfl | rfl
  · -- what the handler replies is what the function over values does
    constructor
    · intro data hdata m
      obtain ⟨node, reply, hnode, hreply, hreplies⟩ := fsFindFirst_replies (h m)
      obtain ⟨hrc, hpData⟩ := (fsFindFirst_searched hnode).1 data hdata m reply hreply
      rwa [hrc, hpData] at hreplies
    · intro hnone
      obtain ⟨node, -, hnode, -⟩ := fsFindFirst_replies (h Memory.zeros)
      obtain ⟨rc, hrc, hconst⟩ := (fsFindFirst_searched hnode).2 hnone
      refine ⟨rc, hrc, fun m => ?_⟩
      obtain ⟨node', reply, hnode', hreply, hreplies⟩ := fsFindFirst_replies (h m)
      obtain rfl := Option.some.inj (hnode.symm.trans hnode')
      rw [hconst m reply hreply] at hreplies
      exact ⟨_, hreplies⟩
  · constructor
    · intro data hdata m
      refine Replies.of_ends (Ends.bind (Ends.read ?_))
      refine Ends.bind (access_ends volumes (fun hdead => absurd (h m).ready.2 hdead) fun _ _ => ?_)
      exact @findMore_replies d ⟨.findNext, q, m, env⟩ data hdata _ rfl rfl rfl
    · intro hnone
      obtain ⟨data, hdata⟩ := exists_search (h Memory.zeros).ready.1
      cases hdata.symm.trans hnone
  · by_cases hlong : verifyString q.szName CCHMAXPATH = true
    · rw [State.searched, if_pos hlong]
      refine ⟨nofun, fun _ => ⟨.ERROR_INVALID_PARAMETER, by decide, fun m => ⟨m, ?_⟩⟩⟩
      refine Replies.of_ends (Ends.bind (Ends.read ?_))
      refine Ends.bind (access_ends volumes (fun hdead => absurd (h m).ready.2 hdead) fun _ _ => ?_)
      exact Ends.bind (Ends.onlyIf (fun _ => done_ends ⟨rfl, rfl, rfl⟩) (absurd hlong))
    rw [State.searched, if_neg hlong]
    constructor
    · intro data hdata m
      refine Replies.of_ends (Ends.bind (Ends.read ?_))
      refine Ends.bind (access_ends volumes (fun hdead => absurd (h m).ready.2 hdead) fun _ _ => ?_)
      refine Ends.bind (Ends.onlyIf (fun h => absurd h hlong) fun _ => ?_)
      exact @findMore_replies d ⟨.findFromName, q, m, env⟩ data hdata _ rfl rfl rfl
    · intro hnone
      obtain ⟨data, hdata⟩ := exists_search (h Memory.zeros).ready.1
      cases hdata.symm.trans hnone

end Handlers

end Isofs.Daemon
