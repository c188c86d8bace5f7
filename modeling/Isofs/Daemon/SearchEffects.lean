import Isofs.Daemon.FileEffects

/-!
# What the search requests do

`fsFindFirst` of the daemon replies what `fsFindFirst` over values does, and with it we know
what the four search requests change.
-/

namespace Isofs.Daemon

open Proc

/-! ### While a search is set up -/

/-- The core with the search that is being set up. -/
def Core.withSearch (c : Core) (p : Ptr) (ns : List Ptr) : Core :=
  { c with searches := Function.update c.searches p (some ns) }

section Rules

variable {s : State} {R : Outcome → State → Prop}

/-- Only the core, the request and the data count. -/
structure SameAs (s s' : State) : Prop where
  core : s'.core = s.core
  request : s'.request = s.request
  pData : s'.pData = s.pData

theorem SameAs.refl (s : State) : SameAs s s := ⟨rfl, rfl, rfl⟩

theorem sameAs_withNodes {nodes : Heap Unit} (h : nodes.objects = s.isoDirEntries.objects) :
    SameAs s (s.withNodes nodes) :=
  ⟨core_withNodes h, rfl, rfl⟩

theorem closeAndReturn_ends {α : Type} {c : Core} {p : Ptr} {ns : List Ptr} {rc : ApiRet}
    {Q : α → State → Prop} (hcore : s.core = c.withSearch p ns) (hfree : c.searches p = none)
    (h : ∀ s', s'.core = c → s'.request = s.request → s'.pData = s.pData → R (.ret rc) s') :
    Ends (closeAndReturn p rc) Q R s := by
  have hsearches : s.core.searches = Function.update c.searches p (some ns) := by rw [hcore]; rfl
  refine Ends.bind (Ends.bind (access_ends State.searches (fun hdead => ?_)
    fun node _ => Ends.update (done_ends (h _ ?_ rfl rfl))))
  · have hlive : s.core.searches p = some ns := by rw [hsearches, Function.update_self]
    obtain ⟨node, hnode, -⟩ := Option.map_eq_some_iff.mp hlive
    exact absurd ⟨node, hnode⟩ hdead
  · have hfields : ({ s with searches := s.searches.free p } : State).core =
        { s.core with searches := Function.update s.core.searches p none } := by
      simp only [State.core, Heap.objects_free, Function.comp_update, Option.map_none]
    rw [hfields, hcore, Core.withSearch, Function.update_idem, ← hfree, Function.update_eq_self]

/-- What `searchedExtent` finds is what `searchedDir` lists. -/
theorem searchedExtent_ends {c : Core} {p : Ptr} {vol : VolData} {env : Env} {szDir : List UInt8}
    {Q : ℤ × ℤ × ℕ → State → Prop} (hcore : s.core = c.withSearch p [])
    (hfree : c.searches p = none) (hexit : 3 < vol.ucsLevel → ∀ s', R .exit s')
    (hfails : ∀ pos s', searchedDir vol env.sectorStack env.pos szDir =
        some (.error .ERROR_PATH_NOT_FOUND, pos) →
      s'.core = c → s'.request = s.request → s'.pData = s.pData →
      R (.ret .ERROR_PATH_NOT_FOUND) s')
    (hfound : ∀ extent size pos s', searchedDir vol env.sectorStack env.pos szDir =
        (Isofs.getDirEntries vol env.sectorStack pos extent size).map
          (fun (entries, pos) => (.ok entries, pos)) →
      SameAs s s' → Q (extent, size, pos) s') :
    Ends (searchedExtent vol env p szDir) Q R s := by
  refine Ends.ite (fun hdir => ?_) fun hdir => ?_
  swap
  · exact Ends.pure (hfound _ _ _ _ (by rw [searchedDir, if_neg hdir]) (SameAs.refl s))
  refine Ends.bind (isoQueryIsoEntryFromPath_ends hexit (fun w nodes hwalk hresult hnodes => ?_)
    fun w e n nodes hwalk hresult hnode hnodes => ?_)
  · obtain ⟨result, pos, listed⟩ := w
    subst hresult
    refine closeAndReturn_ends ((core_withNodes hnodes).trans hcore) hfree fun s' hc hq hd => ?_
    exact hfails pos s' (by rw [searchedDir, if_pos hdir, hwalk]) hc hq hd
  · obtain ⟨result, pos, listed⟩ := w
    subst hresult
    refine Ends.ite (fun hisdir => ?_) fun hisdir => ?_
    · refine Ends.bind (freeFound_ends hnode hnodes fun nodes' hnodes' => Ends.pure ?_)
      refine hfound _ _ _ _ ?_ (sameAs_withNodes hnodes')
      rw [searchedDir, if_pos hdir, hwalk]
      exact if_pos hisdir
    · refine Ends.bind (freeFound_ends hnode hnodes fun nodes' hnodes' => ?_)
      refine closeAndReturn_ends ((core_withNodes hnodes').trans hcore) hfree fun s' hc hq hd => ?_
      refine hfails pos s' ?_ hc hq hd
      rw [searchedDir, if_pos hdir, hwalk]
      exact if_neg hisdir

end Rules

/-! ### The first batch -/

/-- What an `FS_FINDFIRST` leaves that ends with `reply`: a search at `p`, or none. -/
structure FindFirstLeft (r : Incoming) (c : Core) (p : Ptr) (reply : FindFirstReply)
    (s' : State) : Prop where
  cMatch : s'.request.cMatch = reply.cMatch
  oError : s'.request.oError = r.request.oError
  pData : s'.pData = reply.pData
  failed : reply.search = none → reply.rc ≠ .NO_ERROR ∧ reply.rc ≠ .ERROR_EAS_DIDNT_FIT ∧
    s'.request.pSearchData = 0 ∧
    ∃ ns, Fresh c ns ∧ s'.core = c.withNodes ns ∧ (ns = [] ↔ ¬ Leaks c r)
  found : ∀ d, reply.search = some d →
    (reply.rc = .NO_ERROR ∨ reply.rc = .ERROR_EAS_DIDNT_FIT) ∧ s'.request.pSearchData = p ∧
    ∃ ns, ns ≠ [] ∧ Fresh c ns ∧ s'.searches.objects p = some ⟨d, ns⟩ ∧
      s'.core = { (c.withNodes ns).countSearches r.request.pVolData 1 with
        searches := Function.update c.searches p (some ns) }

section FindFirst

variable {q : Request} {d : Memory} {env : Env} {c : Core} {s : State}

/-- A search that stores nothing has not leaked. -/
theorem findFirstLeft_of_fails {p : Ptr} {rc : ApiRet} {node : VolNode} {pos : ℕ} {s' : State}
    (hrc : rc ≠ .NO_ERROR) (heas : rc ≠ .ERROR_EAS_DIDNT_FIT)
    (hleaks : ¬ Leaks c ⟨.findFirst, q, d, env⟩) (hcore : s'.core = c)
    (hrequest : s'.request = { q with pSearchData := 0 }) (hdata : s'.pData = d) :
    FindFirstLeft ⟨.findFirst, q, d, env⟩ c p (findFirstFails rc node d q pos) s' := by
  refine ⟨by rw [hrequest]; rfl, by rw [hrequest], hdata,
    fun _ => ⟨hrc, heas, by rw [hrequest], ?_⟩, nofun⟩
  exact ⟨[], fresh_nil c, hcore, iff_of_true rfl hleaks⟩

theorem fsFindFirst_of_check {rc : ApiRet} {node : VolNode} {pos : ℕ}
    (hcheck : checkFindFirst env.toFindEnv q = rc) (hrc : rc ≠ .NO_ERROR) :
    Isofs.fsFindFirst env.toFindEnv node pos d q = some (findFirstFails rc node d q pos) := by
  rw [Isofs.fsFindFirst, hcheck]
  exact if_pos hrc

/-- What `fsFindFirst` replies once its parameters are found right. -/
def findFirstReply (env : FindEnv) (node : VolNode) (d : Memory) (q : Request) :
    Except ApiRet (List IsoDirEntry) × ℕ → FindFirstReply
  | (.error rc, pos) => findFirstFails rc node d q pos
  | (.ok entries, pos) => Isofs.findFirstIn env node d q entries pos

theorem fsFindFirst_of_ok {env : FindEnv} {node : VolNode} {pos : ℕ}
    (hcheck : checkFindFirst env q = .NO_ERROR) :
    Isofs.fsFindFirst env node pos d q = (searchedDir node.vol.toVolData env.sectorStack pos
      (splitPath (q.szName.drop 2)).1).map (findFirstReply env node d q) := by
  rw [Isofs.fsFindFirst, hcheck, if_neg (not_not.mpr rfl)]
  dsimp only
  rcases searchedDir node.vol.toVolData env.sectorStack pos
    (splitPath (q.szName.drop 2)).1 with _ | ⟨_ | _, _⟩
  · rfl
  · rfl
  · rfl

theorem not_leaks_of_check (hcheck : checkFindFirst env.toFindEnv q ≠ .NO_ERROR) :
    ¬ Leaks c ⟨.findFirst, q, d, env⟩ := by
  rintro ⟨-, entries, ⟨node, pos, -, hok, -⟩, -⟩
  exact hcheck hok

/-- The nodes of a new listing. -/
theorem fresh_range' (s : State) (n : ℕ) :
    Fresh s.core (List.range' s.isoDirEntries.next n) :=
  ⟨List.nodup_range' .., fun p hp =>
    s.isoDirEntries.objects_none p (Or.inr (List.mem_range'_1.mp hp).1)⟩

theorem core_mallocMany (s : State) (n : ℕ) :
    (s.withNodes (s.isoDirEntries.mallocMany n ())).core =
      s.core.withNodes (List.range' s.isoDirEntries.next n) := by
  rw [State.core, Core.withNodes, State.core]
  congr 1
  funext p
  exact Heap.objects_mallocMany _ _ _ _

/-- A search that looks at the entries of its directory does not leak when they are none. -/
theorem not_leaks_of_searched {r : Incoming}
    (h : ∀ entries, SearchedEntries c r entries → entries = []) : ¬ Leaks c r := by
  rintro ⟨-, entries, hsearched, hne, -⟩
  exact hne (h entries hsearched)

theorem core_setSearch (s : State) (p : Ptr) (f : SearchNode → SearchNode) :
    ({ s with searches := s.searches.modify p f } : State).core =
      { s.core with
        searches := Function.update s.core.searches p
          (((s.searches.objects p).map f).map SearchNode.nodes) } := by
  simp only [State.core, Heap.objects_modify, Function.comp_update]

/-- The data of a search are not in the core. -/
theorem core_setSearchData (s : State) (p : Ptr) (f : SearchData → SearchData) :
    ({ s with searches := s.searches.modify p fun node => { node with data := f node.data } } :
      State).core = s.core := by
  rw [core_setSearch, Option.map_map]
  show { s.core with searches := Function.update s.core.searches p (s.core.searches p) } = s.core
  rw [Function.update_eq_self]

variable {p : Ptr} {R : Outcome → State → Prop} {node : VolNode}

/-- The first batch of a search, whose entries are at `ns`. -/
theorem findFirstIn_ends {entries : List IsoDirEntry} {ns : List Ptr} {pos : ℕ}
    (hcore : s.core = (c.withNodes ns).withSearch p []) (hfree : c.searches p = none)
    (hrequest : s.request = { q with pSearchData := 0 }) (hns : ns = [] ↔ entries = [])
    (hfresh : Fresh c ns)
    (hsearched : ∀ es, SearchedEntries c ⟨.findFirst, q, s.pData, env⟩ es ↔ es = entries)
    (hret : ∀ s', FindFirstLeft ⟨.findFirst, q, s.pData, env⟩ c p
        (Isofs.findFirstIn env.toFindEnv node s.pData q entries pos) s' →
      R (.ret (Isofs.findFirstIn env.toFindEnv node s.pData q entries pos).rc) s') :
    Ends (findFirstIn env q p entries ns) (fun _ _ => False) R s := by
  have hlive : ∃ data, s.searches.objects p = some data := by
    have h : s.core.searches p = some [] := by
      rw [hcore]
      exact Function.update_self ..
    obtain ⟨data, hdata, -⟩ := Option.map_eq_some_iff.mp h
    exact ⟨data, hdata⟩
  obtain ⟨data, hdata⟩ := hlive
  have hset (f : SearchNode → SearchNode) (hf : (f data).nodes = ns) :
      ({ s with searches := s.searches.modify p f } : State).core =
        (c.withNodes ns).withSearch p ns := by
    rw [core_setSearch, hdata, hcore, Option.map_some, Option.map_some, hf]
    simp only [Core.withSearch, Function.update_idem]
  refine Ends.bind (Ends.update ?_)
  refine Ends.bind (Ends.onlyIf (fun hempty => ?_) fun hempty => ?_)
  -- the empty list is freed with the search
  · subst hempty
    obtain rfl := hns.mpr rfl
    rw [Isofs.findFirstIn, if_pos rfl] at hret
    refine closeAndReturn_ends (hset _ rfl) hfree fun t hc hq hd => hret t ?_
    refine findFirstLeft_of_fails (by decide) (by decide) ?_ hc (hq.trans hrequest) hd
    exact not_leaks_of_searched fun es h => (hsearched es).mp h
  refine Ends.bind (Ends.read (Ends.bind (Ends.bind (Ends.update (Ends.bind (Ends.update
    (Ends.update ?_)))))))
  rw [Isofs.findFirstIn, if_neg hempty] at hret
  have hnodes : ns ≠ [] := fun h => hempty (hns.mp h)
  have herror : s.request.oError = q.oError := by rw [hrequest]
  -- the reply changes the data of the search only
  have hstored := (core_setSearchData { s with searches := s.searches.modify p fun _ =>
      ⟨newSearch env.toFindEnv q entries, ns⟩ } p fun _ =>
    (storeMatches env.stack (newSearch env.toFindEnv q entries) s.pData q).search).trans
    (hset _ rfl)
  refine Ends.bind (Ends.onlyIf (fun hfails => ?_) fun hfails => ?_)
  -- a failing first batch frees the search but not its list
  · rw [if_pos hfails] at hret
    refine closeAndReturn_ends (c := c.withNodes ns) hstored hfree
      fun t hc hq hd => hret t ?_
    refine ⟨by rw [hq], ?_, hd, fun _ => ⟨hfails.1, hfails.2, ?_, ns, hfresh, hc, ?_⟩, nofun⟩
    · rw [hq]
      exact herror
    · rw [hq]
      show s.request.pSearchData = 0
      rw [hrequest]
    · refine iff_of_false hnodes (not_not.mpr ⟨rfl, entries, ?_, hempty, hfails⟩)
      exact (hsearched entries).mpr rfl
  · rw [if_neg hfails] at hret
    refine Ends.bind (Ends.update (Ends.bind (Ends.update (done_ends (hret _ ?_)))))
    refine ⟨rfl, herror, rfl, nofun, ?_⟩
    rintro d ⟨⟩
    refine ⟨not_and_or.mp hfails |>.imp not_not.mp not_not.mp, rfl, ns, hnodes, hfresh, ?_, ?_⟩
    · show ((s.searches.modify p _).modify p _).objects p = _
      rw [Heap.objects_modify, Function.update_self, Heap.objects_modify, Function.update_self,
        hdata]
      rfl
    · exact congrArg (fun k : Core => k.countSearches q.pVolData 1) hstored

/-- The part of `fsFindFirst` behind the allocation of the search. -/
theorem findFirstFrom_ends (hcore : s.core = c.withSearch p []) (hfree : c.searches p = none)
    (hrequest : s.request = { q with pSearchData := 0 }) (hdata : s.pData = d)
    (hvol : c.volumes q.pVolData = some node)
    (hcheck : checkFindFirst env.toFindEnv q =
      if (splitPath (q.szName.drop 2)).2 = [] then .ERROR_INVALID_PARAMETER else .NO_ERROR)
    (hexit : 3 < node.vol.ucsLevel → ∀ s', R .exit s')
    (hret : ∀ reply s', Isofs.fsFindFirst env.toFindEnv node env.pos d q = some reply →
      FindFirstLeft ⟨.findFirst, q, d, env⟩ c p reply s' → R (.ret reply.rc) s') :
    Ends (findFirstFrom env q node.vol.toVolData p) (fun _ _ => False) R s := by
  refine Ends.bind (Ends.onlyIf (fun hname => ?_) fun hname => ?_)
  · rw [if_pos hname] at hcheck
    refine closeAndReturn_ends hcore hfree fun s' hc hq hd => ?_
    have hrc : ApiRet.ERROR_INVALID_PARAMETER ≠ .NO_ERROR := by decide
    exact hret _ s' (fsFindFirst_of_check hcheck hrc) (findFirstLeft_of_fails hrc (by decide)
      (not_leaks_of_check (hcheck ▸ hrc)) hc (hq.trans hrequest) (hd.trans hdata))
  rw [if_neg hname] at hcheck
  have hpure := @fsFindFirst_of_ok q d env.toFindEnv node env.pos hcheck
  have hsearched (entries : List IsoDirEntry) :
      SearchedEntries c ⟨.findFirst, q, d, env⟩ entries →
        ∃ pos, searchedDir node.vol.toVolData env.sectorStack env.pos
          (splitPath (q.szName.drop 2)).1 = some (.ok entries, pos) := by
    rintro ⟨node', pos, hnode, -, hdir⟩
    obtain rfl := Option.some.inj (hvol.symm.trans hnode)
    exact ⟨pos, hdir⟩
  refine Ends.bind (searchedExtent_ends hcore hfree hexit
    (fun pos s' hdir hc hq hd => ?_) fun extent size pos s' hdir hsame => ?_)
  -- the directory is not found
  · rw [show env.toFindEnv.sectorStack = env.sectorStack from rfl, hdir] at hpure
    refine hret _ s' hpure (findFirstLeft_of_fails (by decide) (by decide) ?_ hc
      (hq.trans hrequest) (hd.trans hdata))
    refine not_leaks_of_searched fun entries h => ?_
    obtain ⟨_, h⟩ := hsearched entries h
    rw [hdir] at h
    cases h
  have hcore' := hsame.core.trans hcore
  refine Ends.bind (getDirEntries_ends (fun h => hexit h s') fun entries pos' hlist => ?_)
  rw [hlist] at hdir
  rw [show env.toFindEnv.sectorStack = env.sectorStack from rfl, hdir] at hpure
  obtain rfl : s'.pData = d := hsame.pData.trans hdata
  refine findFirstIn_ends (c := c) ?_ hfree
    (hsame.request.trans hrequest) ?_ ?_ (fun es => ⟨fun h => ?_, ?_⟩)
    fun t h => hret _ t hpure h
  · rw [core_mallocMany, hcore']
    rfl
  · rw [List.range'_eq_nil_iff, List.length_eq_zero_iff]
  · have h := fresh_range' s' entries.length
    rwa [hcore'] at h
  · obtain ⟨_, h⟩ := hsearched es h
    rw [hdir] at h
    cases h
    rfl
  · rintro rfl
    exact ⟨node, pos', hvol, hcheck, hdir⟩

/-- `fsFindFirst` ends with what `fsFindFirst` over values replies. -/
theorem fsFindFirst_ends (hrequest : s.request = q)
    (hdead : ¬ Live s.core.volumes q.pVolData → R .dead s)
    (hexit : ∀ node s', s.core.volumes q.pVolData = some node → 3 < node.vol.ucsLevel →
      R .exit s')
    (hret : ∀ node reply s', s.core.volumes q.pVolData = some node →
      Isofs.fsFindFirst env.toFindEnv node env.pos s.pData q = some reply →
      FindFirstLeft ⟨.findFirst, q, s.pData, env⟩ s.core s.searches.next reply s' →
      R (.ret reply.rc) s') :
    Ends (fsFindFirst env) (fun _ _ => False) R s := by
  subst hrequest
  refine Ends.bind (Ends.read ?_)
  refine Ends.bind (access_ends volumes hdead fun node hvol => ?_)
  have hchecked {rc : ApiRet} (hcheck : checkFindFirst env.toFindEnv s.request = rc)
      (hrc : rc ≠ .NO_ERROR) (heas : rc ≠ .ERROR_EAS_DIDNT_FIT) :
      R (.ret rc) { s with request := { s.request with pSearchData := 0 } } :=
    hret node _ _ hvol (fsFindFirst_of_check hcheck hrc)
      (findFirstLeft_of_fails hrc heas (not_leaks_of_check (hcheck ▸ hrc)) rfl rfl rfl)
  refine Ends.bind (Ends.update ?_)
  refine Ends.bind (Ends.onlyIf (fun hbad => done_ends ?_) fun hbad => ?_)
  · refine hchecked (if_pos ?_) (by decide) (by decide)
    simpa [badPath] using hbad
  have hpath : ¬ (verifyString s.request.szName CCHMAXPATH = true ∨
      verifyPathName s.request.szName = true) := by simpa [badPath] using hbad
  refine Ends.bind (Ends.onlyIf (fun hlevel => done_ends ?_) fun hlevel => ?_)
  · exact hchecked ((if_neg hpath).trans (if_pos hlevel)) (by decide) (by decide)
  refine Ends.bind (Ends.onlyIf (fun hmalloc => done_ends ?_) fun hmalloc => ?_)
  · exact hchecked ((if_neg hpath).trans ((if_neg hlevel).trans (if_pos hmalloc))) (by decide)
      (by decide)
  -- only the name of the last component is still to be checked
  have hcheck : checkFindFirst env.toFindEnv s.request =
      if (splitPath (s.request.szName.drop 2)).2 = [] then .ERROR_INVALID_PARAMETER
      else .NO_ERROR :=
    (if_neg hpath).trans ((if_neg hlevel).trans (if_neg hmalloc))
  have hnew : s.core.searches s.searches.next = none := by
    show (s.searches.objects s.searches.next).map _ = none
    rw [s.searches.objects_next]
    rfl
  refine Ends.bind (Ends.of_ok rfl ?_)
  refine findFirstFrom_ends (c := s.core) ?_ hnew rfl rfl hvol hcheck
    (fun h s' => hexit node s' hvol h) fun reply s' => hret node reply s' hvol
  simp only [State.core, Core.withSearch, Heap.objects_malloc, Function.comp_update,
    Option.map_some]

end FindFirst

/-! ### The search requests -/

section Handlers

variable {q : Request} {pData : Memory} {env : Env} {s : State}

theorem fsFindFirst_serves : Serves ⟨.findFirst, q, pData, env⟩ (fsFindFirst env) := by
  rintro s hrequest rfl
  refine fsFindFirst_ends hrequest (fun hdead hready => hdead hready)
    (fun node _ hvol h => ⟨node, hvol, h⟩) fun node reply s' hvol _ h => ?_
  show Replied _ _ _ _ _
  rw [Replied, Incoming.event]
  cases hsearch : reply.search with
  | none =>
    obtain ⟨hrc, heas, -, ns, hfresh, hcore, hleaks⟩ := h.failed hsearch
    dsimp only
    rw [if_neg (not_or.mpr ⟨hrc, heas⟩)]
    exact ⟨ns, hfresh, hcore, fun _ => hleaks⟩
  | some d =>
    obtain ⟨hrc, hp, ns, hne, hfresh, -, hcore⟩ := h.found d hsearch
    dsimp only
    rw [if_pos hrc, hp]
    refine ⟨ns, ⟨node, hvol⟩, ?_, hne, hfresh, hcore⟩
    show (s.searches.objects s.searches.next).map _ = none
    rw [s.searches.objects_next]
    rfl

/-- A search that a request uses, from the core. -/
theorem not_live_searches {p : Ptr} (h : ¬ Live s.searches.objects p) :
    ¬ Live s.core.searches p := by
  rintro ⟨ns, hns⟩
  obtain ⟨node, hnode, -⟩ := Option.map_eq_some_iff.mp hns
  exact h ⟨node, hnode⟩

theorem findMore_ends {r : Incoming} (hcall : r.call = .findNext ∨ r.call = .findFromName) :
    Ends (findMore env r.request) (fun _ _ => False) (Served r s.core) s := by
  have hevent (rc : ApiRet) (reply : Request) : r.event rc reply = none := by
    rw [Incoming.event]
    rcases hcall with h | h <;> rw [h]
  have hleaks : ¬ Leaks s.core r := by
    refine not_leaks_of_call _ fun h => ?_
    rw [h] at hcall
    rcases hcall with h | h <;> cases h
  have hready (h : Ready s.core r) : Live s.core.searches r.request.pSearchData := by
    rw [Ready] at h
    rcases hcall with hc | hc <;> (rw [hc] at h; exact h.1)
  refine Ends.bind (access_ends State.searches
    (fun hdead h => not_live_searches hdead (hready h)) fun node _ => ?_)
  refine Ends.bind (Ends.read (Ends.bind (Ends.bind (Ends.update (Ends.bind (Ends.update
    (Ends.update ?_)))))))
  exact done_ends (served_of_eq (hevent _ _) hleaks (core_setSearchData s _ fun _ => _))

theorem fsFindNext_serves : Serves ⟨.findNext, q, pData, env⟩ (fsFindNext env) := by
  rintro s rfl -
  refine Ends.bind (Ends.read ?_)
  refine Ends.bind (access_ends volumes (fun hdead hready => hdead hready.2) fun _ _ => ?_)
  exact findMore_ends (r := ⟨.findNext, s.request, pData, env⟩) (Or.inl rfl)

theorem fsFindFromName_serves : Serves ⟨.findFromName, q, pData, env⟩ (fsFindFromName env) := by
  rintro s rfl -
  refine Ends.bind (Ends.read ?_)
  refine Ends.bind (access_ends volumes (fun hdead hready => hdead hready.2) fun _ _ => ?_)
  refine Ends.bind (Ends.onlyIf (fun _ => ?_) fun _ => ?_)
  · exact done_ends (served_of_eq rfl (not_leaks_of_call _ nofun) rfl)
  · exact findMore_ends (r := ⟨.findFromName, s.request, pData, env⟩) (Or.inr rfl)

theorem fsFindClose_serves : Serves ⟨.findClose, q, pData, env⟩ fsFindClose := by
  rintro s rfl -
  refine Ends.bind (Ends.read ?_)
  refine Ends.bind (Ends.bind (access_ends State.searches
    (fun hdead hready => not_live_searches hdead hready.1) fun search hsearch => Ends.update ?_))
  refine Ends.bind (access_ends volumes (fun hdead hready => hdead hready.2)
    fun node hvol => ?_)
  refine Ends.bind (Ends.update (done_ends ?_))
  refine served_of_event (e := .findClose _ _) rfl ?_
  refine ⟨⟨node, hvol⟩, ⟨search.nodes, ?_⟩, ?_⟩
  · show (s.searches.objects s.request.pSearchData).map _ = _
    rw [hsearch]
    rfl
  · simp only [State.core, Core.countSearches, Heap.objects_free, Heap.objects_modify,
      Function.comp_update, Option.map_none]
    rfl

/-- What a request leaves: nothing that was not there, or what its event does. -/
theorem serve_served (s : State) (r : Incoming) : Served r s.core (serve s r).1 (serve s r).2 := by
  obtain ⟨call, q, pData, env⟩ := r
  have hrun {m : Handler Empty} (h : Serves ⟨call, q, pData, env⟩ m) :
      Served ⟨call, q, pData, env⟩ s.core (m.run { s with request := q, pData := pData }).1
        (m.run { s with request := q, pData := pData }).2 :=
    Ends.run (h { s with request := q, pData := pData } rfl rfl)
  cases call with
  | attach => exact hrun fsAttach_serves
  | openCreate => exact hrun fsOpenCreate_serves
  | close => exact hrun fsClose_serves
  | read => exact hrun fsRead_serves
  | fileInfo => exact hrun fsFileInfo_serves
  | pathInfo => exact hrun fsPathInfo_serves
  | fileAttribute => exact hrun fsFileAttribute_serves
  | chDir => exact hrun fsChDir_serves
  | findFirst => exact hrun fsFindFirst_serves
  | findNext => exact hrun fsFindNext_serves
  | findFromName => exact hrun fsFindFromName_serves
  | findClose => exact hrun fsFindClose_serves

end Handlers

end Isofs.Daemon
