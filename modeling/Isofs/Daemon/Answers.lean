import Isofs.Daemon.Bookkeeping
import Isofs.Find.First

/-!
# The answers of the daemon

The code that a request is answered with when the objects that it uses are there: a close always
succeeds, a volume is detached unless it is in use, and a search is opened when its first batch
has an entry.
-/

namespace Isofs.Daemon

open Proc

/-- From `s` the handler ends in an outcome. -/
def EndsIn (o : Outcome) (m : Handler Empty) (s : State) : Prop :=
  Ends m (fun _ _ => False) (fun o' _ => o' = o) s

theorem next_outcome (sys : System) (r : Incoming) :
    (sys.next r).1 = (serve sys.daemon r).1 := by
  rw [System.next]
  generalize serve sys.daemon r = served
  obtain ⟨outcome, daemon⟩ := served
  cases outcome with
  | ret rc =>
    dsimp only
    split <;> rfl
  | dead => rfl
  | exit => rfl
  | waiting => rfl

/-- What a handler ends in is the outcome of its request. -/
theorem next_of_endsIn {sys : System} {r : Incoming} {o : Outcome}
    (h : ∀ s : State, s.core = sys.daemon.core → s.request = r.request → s.pData = r.pData →
      EndsIn o (handleRequest r.env r.call) s) : (sys.next r).1 = o := by
  rw [next_outcome]
  exact Ends.run (h { sys.daemon with request := r.request, pData := r.pData } rfl rfl rfl)

/-! ### Closes -/

section Closes

variable {s : State}

/-- What a final close looks at before the volume. -/
theorem fsClose_ends {o : Outcome} (hfinal : s.request.usType = FS_CL_FORSYS)
    (hfile : ∃ n, s.core.openFiles s.request.pOpenFileData = some n ∧ Live s.core.isoDirEntries n)
    (hdead : ¬ Live s.core.volumes s.request.pVolData → o = .dead)
    (hlive : Live s.core.volumes s.request.pVolData → o = .ret .NO_ERROR) : EndsIn o fsClose s := by
  obtain ⟨n, hn, hnode⟩ := hfile
  obtain ⟨file, hfile, rfl⟩ := Option.map_eq_some_iff.mp hn
  refine Ends.bind (Ends.read (Ends.bind (Ends.onlyIf (fun _ => ?_) (absurd hfinal))))
  refine Ends.bind (access_ends State.openFiles
    (fun hdead => absurd ⟨file, hfile⟩ hdead) fun file' hfile' => ?_)
  obtain rfl := Option.some.inj (hfile.symm.trans hfile')
  refine Ends.bind (freeEntry_ends (absurd hnode) fun _ => Ends.bind (Ends.update ?_))
  refine Ends.bind (access_ends volumes (fun h => (hdead h).symm) fun node hvol => ?_)
  refine Ends.update ?_
  exact done_ends (hlive ⟨node, hvol⟩).symm

/-- What the close of a search looks at before the volume. -/
theorem fsFindClose_ends {o : Outcome} (hsearch : Live s.core.searches s.request.pSearchData)
    (hdead : ¬ Live s.core.volumes s.request.pVolData → o = .dead)
    (hlive : Live s.core.volumes s.request.pVolData → o = .ret .NO_ERROR) :
    EndsIn o fsFindClose s := by
  refine Ends.bind (Ends.read ?_)
  refine Ends.bind (Ends.bind (access_ends State.searches
    (fun hdead => absurd hsearch (not_live_searches hdead)) fun search _ => Ends.update ?_))
  refine Ends.bind (access_ends volumes (fun h => (hdead h).symm) fun node hvol => ?_)
  exact Ends.bind (Ends.update (done_ends (hlive ⟨node, hvol⟩).symm))

end Closes

/-! ### Volumes -/

/-- `szDev` is a drive. -/
def IsDrive (szDev : List UInt8) : Prop :=
  ¬ (verifyString szDev FSXCHG_ATTACH_DEVMAX ∨ szDev.length ≠ 2 ∨ szDev.getD 1 0 ≠ 0x3a)

instance (szDev : List UInt8) : Decidable (IsDrive szDev) := inferInstanceAs (Decidable (¬ _))

/-- A volume is in use. -/
def VolNode.Busy (node : VolNode) : Prop := node.cOpenFiles ≠ 0 ∨ node.cSearches ≠ 0

instance (node : VolNode) : Decidable (VolNode.Busy node) := inferInstanceAs (Decidable (_ ∨ _))

/-- The code of a detach. -/
def detachCode (node : VolNode) (request : Request) (pData : Memory) : ApiRet :=
  if IsDrive request.szDev then
    if VolNode.Busy node ∧ ¬ isForced request pData then .ERROR_DRIVE_LOCKED else .NO_ERROR
  else .ERROR_INVALID_PARAMETER

theorem detachCode_eq_noError_iff {node : VolNode} {request : Request} {pData : Memory} :
    detachCode node request pData = .NO_ERROR ↔
      IsDrive request.szDev ∧ (VolNode.Busy node → isForced request pData = true) := by
  rw [detachCode]
  by_cases hdrive : IsDrive request.szDev
  · rw [if_pos hdrive, and_iff_right hdrive]
    by_cases hlocked : VolNode.Busy node ∧ ¬ isForced request pData
    · rw [if_pos hlocked]
      exact iff_of_false (by decide) fun h => hlocked.2 (h hlocked.1)
    · rw [if_neg hlocked]
      exact iff_of_true rfl fun h => not_not.mp fun hforced => hlocked ⟨h, hforced⟩
  · rw [if_neg hdrive]
    exact iff_of_false (by decide) fun h => hdrive h.1

section Volumes

variable {env : Env} {s : State}

/-- A volume in use is detached only by force. -/
theorem fsAttach_detach {node : VolNode} (hflag : s.request.fsFlag = FSA_DETACH)
    (hnode : s.core.volumes s.request.pVolData = some node) (hnext : LinkLive s.core node.pNext)
    (hprev : LinkLive s.core node.pPrev) :
    EndsIn (.ret (detachCode node s.request s.pData)) (fsAttach env) s := by
  have hattach : s.request.fsFlag ≠ FSA_ATTACH := by rw [hflag]; decide
  refine Ends.bind (Ends.read (Ends.bind (Ends.onlyIf (fun hbad => done_ends ?_) fun hdrive => ?_)))
  · exact congrArg Outcome.ret (if_neg (not_not.mpr hbad)).symm
  have hlocked (h : VolNode.Busy node) (hforced : ¬ isForced s.request s.pData = true) :
      ApiRet.ERROR_DRIVE_LOCKED = detachCode node s.request s.pData := by
    rw [detachCode, if_pos (show IsDrive _ from hdrive), if_pos ⟨h, hforced⟩]
  refine Ends.ite (fun h => absurd h hattach) fun _ => Ends.ite (fun _ => ?_) (absurd hflag)
  refine Ends.bind (Ends.read (Ends.bind (Ends.read ?_)))
  refine Ends.bind (access_ends volumes (fun hdead => absurd ⟨node, hnode⟩ hdead)
    fun node' hnode' => ?_)
  obtain rfl := Option.some.inj (hnode.symm.trans hnode')
  refine Ends.bind (Ends.onlyIf (fun h => done_ends ?_) fun hfiles => ?_)
  · exact congrArg Outcome.ret (hlocked (Or.inl h.1) h.2)
  refine Ends.bind (Ends.onlyIf (fun h => done_ends ?_) fun hsearches => ?_)
  · exact congrArg Outcome.ret (hlocked (Or.inr h.1) h.2)
  refine Ends.bind (accessLink_ends (absurd hnext) fun _ => ?_)
  refine Ends.bind (accessLink_ends (absurd hprev) fun _ => Ends.bind (Ends.update (done_ends ?_)))
  refine congrArg Outcome.ret (detachCode_eq_noError_iff.mpr ⟨hdrive, ?_⟩).symm
  rintro (hbusy | hbusy)
  · exact not_not.mp fun hforced => hfiles ⟨hbusy, hforced⟩
  · exact not_not.mp fun hforced => hsearches ⟨hbusy, hforced⟩

/-- A mount that succeeds. -/
theorem fsAttach_mount {reply : Request} {server : ServerData} (hdrive : IsDrive s.request.szDev)
    (hflag : s.request.fsFlag = FSA_ATTACH) (hfirst : LinkLive s.core s.server.pFirstVolume)
    (hmount : Isofs.attachVolume env.mount env.fuel s.pData s.request s.server =
      some (.NO_ERROR, reply, server)) :
    Ends (fsAttach env) (fun _ _ => False)
      (fun o s' => o = .ret .NO_ERROR ∧ s'.request = reply ∧ s'.server = server) s := by
  refine Ends.bind (Ends.read (Ends.bind (Ends.onlyIf (fun h => absurd h hdrive) fun _ => ?_)))
  refine Ends.ite (fun _ => ?_) (absurd hflag)
  refine Ends.bind (Ends.bind (Ends.read ?_))
  simp only [id, hmount]
  refine Ends.bind (Ends.onlyIf (fun _ => ?_) (absurd rfl))
  refine accessLink_ends (absurd hfirst) fun _ => ?_
  exact Ends.bind (Ends.update (Ends.pure (Ends.bind (Ends.update (done_ends ⟨rfl, rfl, rfl⟩)))))

end Volumes

/-- A request that brings something about. -/
theorem next_of_event {sys : System} {r : Incoming} {rc : ApiRet} {s : State} {e : Event}
    (h : serve sys.daemon r = (.ret rc, s)) (hevent : r.event rc s.request = some e) :
    sys.next r = (.ret rc, ⟨s, sys.ledger.after e⟩) := by
  rw [System.next, h]
  dsimp only
  rw [hevent]

/-- A request that mounts a volume attaches it. -/
theorem next_mount {sys : System} {r : Incoming} {reply : Request} {server : ServerData}
    (hcall : r.call = .attach) (hdrive : IsDrive r.request.szDev)
    (hflag : r.request.fsFlag = FSA_ATTACH)
    (hfirst : LinkLive sys.daemon.core sys.daemon.core.pFirstVolume)
    (hmount : Isofs.attachVolume r.env.mount r.env.fuel r.pData r.request sys.daemon.server =
      some (.NO_ERROR, reply, server)) :
    ∃ sys', sys.next r = (.ret .NO_ERROR, sys') ∧ sys'.daemon.server = server ∧
      sys'.ledger = sys.ledger.after (.attach reply.pVolData) := by
  obtain ⟨call, q, pData, env⟩ := r
  obtain rfl : call = .attach := hcall
  have hrun := Ends.run (fsAttach_mount
    (s := { sys.daemon with request := q, pData := pData }) hdrive hflag hfirst hmount)
  obtain ⟨hret, hrequest, hserver⟩ := hrun
  have hserve : serve sys.daemon ⟨.attach, q, pData, env⟩ =
      (.ret .NO_ERROR, (serve sys.daemon ⟨.attach, q, pData, env⟩).2) := Prod.ext hret rfl
  refine ⟨_, next_of_event (e := .attach reply.pVolData) hserve ?_, hserver, rfl⟩
  rw [Incoming.event]
  dsimp only at hflag ⊢
  rw [if_neg (not_not.mpr rfl), if_pos hflag]
  exact congrArg (fun q : Request => some (Event.attach q.pVolData)) hrequest

/-! ### Searches -/

/-- The first batch of a search has an entry: there is one that the search wants, and its record
fits in the data buffer. -/
def FirstFits (r : Incoming) (entries : List IsoDirEntry) : Prop :=
  r.request.cMatch ≠ 0 ∧ (newSearch r.env.toFindEnv r.request entries).NextFits
    (askedNames (copyGeas r.env.stack r.pData r.request.usLevel)) r.request.usLevel
    r.request.fsFlags r.request.cbData.toNat

theorem firstBatchFails_iff (r : Incoming) (entries : List IsoDirEntry) :
    FirstBatchFails r entries ↔ ¬ FirstFits r entries := by
  rw [FirstFits, ← stores_storeMatches]
  exact (not_or).symm

/-- A search in a directory that is not empty ends with the code of its first batch. -/
theorem next_findFirst {sys : System} {r : Incoming} {node : VolNode} {entries : List IsoDirEntry}
    (hcall : r.call = .findFirst)
    (hnode : sys.daemon.core.volumes r.request.pVolData = some node)
    (hlevel : node.vol.ucsLevel ≤ 3) (hsearched : SearchedEntries sys.daemon.core r entries)
    (hne : entries ≠ []) :
    (sys.next r).1 = .ret (storeMatches r.env.stack (newSearch r.env.toFindEnv r.request entries)
      r.pData r.request).rc := by
  obtain ⟨call, q, pData, env⟩ := r
  obtain rfl : call = .findFirst := hcall
  rw [next_outcome]
  refine Ends.run (fsFindFirst_ends
    (s := { sys.daemon with request := q, pData := pData }) (q := q)
    (R := fun o _ => o = .ret (storeMatches env.stack (newSearch env.toFindEnv q entries) pData
      q).rc) rfl (fun hdead => absurd ⟨node, hnode⟩ hdead)
    (fun node' _ hnode' h => ?_) fun node' reply s' hnode' hreply _ => ?_)
  · obtain rfl := Option.some.inj (hnode.symm.trans hnode')
    omega
  · obtain rfl := Option.some.inj (hnode.symm.trans hnode')
    obtain ⟨node'', pos, hnode'', hcheck, hdir⟩ := hsearched
    obtain rfl := Option.some.inj (hnode.symm.trans hnode'')
    rw [Isofs.fsFindFirst, hcheck] at hreply
    dsimp only at hdir hreply
    rw [hdir, if_neg (not_not.mpr rfl), Option.some.injEq, Isofs.findFirstIn, if_neg hne] at hreply
    subst hreply
    dsimp only
    split <;> rfl

/-- A search whose first batch has an entry is opened. -/
theorem next_findFirst_of_fits {sys : System} {r : Incoming} {node : VolNode}
    {entries : List IsoDirEntry} (hcall : r.call = .findFirst)
    (hnode : sys.daemon.core.volumes r.request.pVolData = some node)
    (hlevel : node.vol.ucsLevel ≤ 3) (hsearched : SearchedEntries sys.daemon.core r entries)
    (hne : entries ≠ []) (hfits : FirstFits r entries) :
    ∃ rc, Stores rc ∧ (sys.next r).1 = .ret rc :=
  ⟨_, (stores_storeMatches ..).mpr hfits, next_findFirst hcall hnode hlevel hsearched hne⟩

end Isofs.Daemon
