import Isofs.Daemon.Lifetimes

/-!
# The counters of a volume

As long as no volume is detached by force, every volume counts the files and the searches that it
has issued and that are open, and it can be detached when it has none.
-/

namespace Isofs.Daemon

open Proc

/-! ### Counting handles -/

theorem count_cons (h : Ptr × Ptr) (hs : Handles) (v : Ptr) :
    Handles.count (h :: hs) v = Handles.count hs v + if h.2 = v then 1 else 0 := by
  rw [Handles.count, Handles.count, List.countP_cons]
  by_cases hv : h.2 = v
  · rw [if_pos hv, if_pos (by simpa using hv)]
  · rw [if_neg hv, if_neg (by simpa using hv)]

/-- A handle that was not issued is not given back. -/
theorem release_of_notMem {hs : Handles} {p : Ptr} (h : p ∉ Handles.addresses hs) :
    Handles.release hs p = hs := by
  refine List.filter_eq_self.mpr fun q hq => decide_eq_true ?_
  rintro rfl
  exact h (List.mem_map_of_mem hq)

theorem count_release {hs : Handles} (hnodup : (Handles.addresses hs).Nodup) {p v : Ptr}
    (hmem : (p, v) ∈ hs) (u : Ptr) :
    Handles.count (Handles.release hs p) u + (if v = u then 1 else 0) = Handles.count hs u := by
  induction hs with
  | nil => exact absurd hmem List.not_mem_nil
  | cons h hs ih =>
    obtain ⟨hnew, hnodup⟩ := List.nodup_cons.mp hnodup
    by_cases hp : h.1 = p
    · -- the handle comes first
      have hfirst : h = (p, v) := by
        rcases List.mem_cons.mp hmem with hmem | hmem
        · exact hmem.symm
        · exact absurd (List.mem_map_of_mem hmem) (hp ▸ hnew)
      have hrest : Handles.release (h :: hs) p = hs := by
        rw [Handles.release, List.filter_cons_of_neg (by simpa using hp)]
        exact release_of_notMem (hp ▸ hnew)
      rw [hrest, count_cons, hfirst]
    · have hrest : Handles.release (h :: hs) p = h :: Handles.release hs p :=
        List.filter_cons_of_pos (decide_eq_true hp)
      have hmem : (p, v) ∈ hs := by
        rcases List.mem_cons.mp hmem with hmem | hmem
        · exact absurd (congrArg Prod.fst hmem).symm hp
        · exact hmem
      rw [hrest, count_cons, count_cons, ← ih hnodup hmem]
      exact Nat.add_right_comm _ _ _

theorem notMem_of_count {hs : Handles} {v : Ptr} (h : Handles.count hs v = 0) :
    ∀ q ∈ hs, q.2 ≠ v := by
  intro q hq hv
  exact List.countP_eq_zero.mp h q hq (decide_eq_true hv)

/-! ### Tallies -/

/-- Every volume counts the handles that it has issued. -/
structure Tallied (count : VolNode → ℤ) (hs : Handles) (vs : List Ptr)
    (volumes : Ptr → Option VolNode) : Prop where
  count : ∀ v n, (volumes v).map count = some n → n = Handles.count hs v
  issued : ∀ h ∈ hs, h.2 ∈ vs

section Tallied

variable {count : VolNode → ℤ} {hs : Handles} {vs : List Ptr}
  {volumes volumes' : Ptr → Option VolNode} {p v : Ptr}

theorem Tallied.congr (h : Tallied count hs vs volumes)
    (hsame : ∀ u, (volumes' u).map count = (volumes u).map count) :
    Tallied count hs vs volumes' :=
  ⟨fun u n hn => h.count u n (hsame u ▸ hn), h.issued⟩

/-- A new volume has issued nothing. -/
theorem Tallied.push (h : Tallied count hs vs volumes) (hp : p ∉ vs)
    (hmap : ∀ u, (volumes' u).map count = if u = p then some 0 else (volumes u).map count) :
    Tallied count hs (p :: vs) volumes' := by
  refine ⟨fun u n hn => ?_, fun q hq => List.mem_cons_of_mem p (h.issued q hq)⟩
  rw [hmap] at hn
  split at hn
  · next hu =>
    obtain rfl := Option.some.inj hn
    refine (Int.natCast_eq_zero.mpr (List.countP_eq_zero.mpr fun q hq hv => hp ?_)).symm
    rw [← hu, ← of_decide_eq_true hv]
    exact h.issued q hq
  · exact h.count u n hn

/-- A volume that has issued nothing goes. -/
theorem Tallied.erase (h : Tallied count hs vs volumes) (hzero : Handles.count hs p = 0)
    (hmap : ∀ u n, (volumes' u).map count = some n → (volumes u).map count = some n) :
    Tallied count hs (vs.erase p) volumes' :=
  ⟨fun u n hn => h.count u n (hmap u n hn), fun q hq =>
    (List.mem_erase_of_ne (notMem_of_count hzero q hq)).mpr (h.issued q hq)⟩

theorem Tallied.issue (h : Tallied count hs vs volumes) (hv : v ∈ vs)
    (hmap : ∀ u, (volumes' u).map count =
      ((volumes u).map count).map (· + if v = u then 1 else 0)) :
    Tallied count ((p, v) :: hs) vs volumes' := by
  refine ⟨fun u n hn => ?_, fun q hq => ?_⟩
  · rw [hmap] at hn
    obtain ⟨m, hm, rfl⟩ := Option.map_eq_some_iff.mp hn
    rw [count_cons, h.count u m hm]
    split
    · rfl
    · rw [Nat.add_zero, Int.add_zero]
  · rcases List.mem_cons.mp hq with rfl | hq
    · exact hv
    · exact h.issued q hq

theorem Tallied.release (h : Tallied count hs vs volumes)
    (hnodup : (Handles.addresses hs).Nodup) (hmem : (p, v) ∈ hs)
    (hmap : ∀ u, (volumes' u).map count =
      ((volumes u).map count).map (· + if v = u then -1 else 0)) :
    Tallied count (Handles.release hs p) vs volumes' := by
  refine ⟨fun u n hn => ?_, fun q hq => h.issued q (List.mem_of_mem_filter hq)⟩
  rw [hmap] at hn
  obtain ⟨m, hm, rfl⟩ := Option.map_eq_some_iff.mp hn
  rw [h.count u m hm, ← count_release hnodup hmem u]
  split
  · omega
  · rw [Nat.add_zero, Int.add_zero]

/-- Counting at one volume. -/
theorem map_update {f : VolNode → VolNode} {k : ℤ} (hf : ∀ node, count (f node) = count node + k)
    (v u : Ptr) : (Function.update volumes v ((volumes v).map f) u).map count =
      ((volumes u).map count).map (· + if v = u then k else 0) := by
  by_cases hu : v = u
  · subst hu
    rw [Function.update_self, if_pos rfl, Option.map_map, Option.map_map]
    exact congrArg (fun g => (volumes v).map g) (funext hf)
  · rw [Function.update_of_ne fun h => hu h.symm, if_neg hu]
    simp only [Int.add_zero, Option.map_id']

/-- Counting something else. -/
theorem map_update_of_eq {f : VolNode → VolNode} (hf : ∀ node, count (f node) = count node)
    (v u : Ptr) : (Function.update volumes v ((volumes v).map f) u).map count =
      (volumes u).map count := by
  rw [map_update (k := 0) (fun node => by rw [hf, Int.add_zero])]
  simp only [ite_self, Int.add_zero, Option.map_id']

end Tallied

/-- The volumes count the open files and the searches. -/
structure Counted (l : Ledger) (c : Core) : Prop where
  files : Tallied VolNode.cOpenFiles l.files l.volumes c.volumes
  searches : Tallied VolNode.cSearches l.searches l.volumes c.volumes

theorem Counted.not_busy_iff {l : Ledger} {c : Core} (h : Counted l c) {v : Ptr} {node : VolNode}
    (hv : c.volumes v = some node) :
    ¬ VolNode.Busy node ↔ Handles.count l.files v = 0 ∧ Handles.count l.searches v = 0 := by
  have hfiles := h.files.count v node.cOpenFiles (by rw [hv]; rfl)
  have hsearches := h.searches.count v node.cSearches (by rw [hv]; rfl)
  rw [VolNode.Busy, not_or, not_not, not_not, hfiles, hsearches, Int.natCast_eq_zero,
    Int.natCast_eq_zero]

/-! ### Requests -/

/-- A legal request that detaches no volume by force, and closes a handle at the volume that
issued it. -/
structure Booked (sys : System) (r : Incoming) : Prop where
  legal : Legal sys r
  detach : r.call = .attach → r.request.fsFlag = FSA_DETACH → isForced r.request r.pData = false
  close : r.call = .close → (r.request.pOpenFileData, r.request.pVolData) ∈ sys.ledger.files
  findClose : r.call = .findClose →
    (r.request.pSearchData, r.request.pVolData) ∈ sys.ledger.searches

/-- An event that such a request brings about. -/
def Event.Fair (l : Ledger) (c : Core) : Event → Prop
  | .detach p => ∀ node, c.volumes p = some node → ¬ VolNode.Busy node
  | .close v p => (p, v) ∈ l.files
  | .findClose v p => (p, v) ∈ l.searches
  | _ => True

/-- Fair events keep the tallies. -/
theorem Counted.applies {l : Ledger} {c c' : Core} (h : Counted l c) (hrepr : Represents l c)
    {e : Event} (hfair : e.Fair l c) (happ : Applies c c' e) : Counted (l.after e) c' := by
  cases e with
  | attach p =>
    obtain ⟨vol, -, hfree, -, -, rfl⟩ := happ
    have hp : p ∉ l.volumes := by
      rw [← hrepr.live_volume]
      rintro ⟨node, hnode⟩
      cases hfree.symm.trans hnode
    exact ⟨h.files.push hp (volLinks.map_push (fun _ _ => rfl) _ _ _ _),
      h.searches.push hp (volLinks.map_push (fun _ _ => rfl) _ _ _ _)⟩
  | detach p =>
    obtain ⟨node, hnode, rfl⟩ := happ
    obtain ⟨hfiles, hsearches⟩ := (h.not_busy_iff hnode).mp (hfair node hnode)
    -- what is left of a volume is what it was but for its links
    have hmap {count : VolNode → ℤ} (hprev : ∀ p a, count (volLinks.setPrev p a) = count a)
        (hnext : ∀ p a, count (volLinks.setNext p a) = count a) (u : Ptr) (n : ℤ)
        (hn : (Function.update (volLinks.unlink c.volumes node) p none u).map count = some n) :
        (c.volumes u).map count = some n := by
      by_cases hu : u = p
      · rw [hu, Function.update_self] at hn
        cases hn
      · rw [Function.update_of_ne hu, volLinks.map_unlink hprev hnext] at hn
        exact hn
    exact ⟨h.files.erase hfiles (hmap (fun _ _ => rfl) fun _ _ => rfl),
      h.searches.erase hsearches (hmap (fun _ _ => rfl) fun _ _ => rfl)⟩
  | «open» v p =>
    obtain ⟨n, hv, -, -, rfl⟩ := happ
    exact ⟨h.files.issue (hrepr.live_volume.mp hv) (map_update (fun _ => rfl) v),
      h.searches.congr (map_update_of_eq (f := fun a => { a with cOpenFiles := a.cOpenFiles + 1 })
        (fun _ => rfl) v)⟩
  | close v p =>
    obtain ⟨n, -, -, -, rfl⟩ := happ
    exact ⟨h.files.release hrepr.files.nodup hfair (map_update (fun _ => rfl) v),
      h.searches.congr (map_update_of_eq
        (f := fun a => { a with cOpenFiles := a.cOpenFiles + -1 }) (fun _ => rfl) v)⟩
  | find v p =>
    obtain ⟨ns, hv, -, -, -, rfl⟩ := happ
    exact ⟨h.files.congr (map_update_of_eq
        (f := fun a => { a with cSearches := a.cSearches + 1 }) (fun _ => rfl) v),
      h.searches.issue (hrepr.live_volume.mp hv) (map_update (fun _ => rfl) v)⟩
  | findClose v p =>
    obtain ⟨-, -, rfl⟩ := happ
    exact ⟨h.files.congr (map_update_of_eq
        (f := fun a => { a with cSearches := a.cSearches + -1 }) (fun _ => rfl) v),
      h.searches.release hrepr.searches.nodup hfair (map_update (fun _ => rfl) v)⟩

/-- What a booked request brings about is fair. -/
theorem fair_of_booked {sys sys' : System} (hrepr : Represents sys.ledger sys.daemon.core)
    {r : Incoming} (hbooked : Booked sys r) {rc : ApiRet} (hnext : sys.next r = (.ret rc, sys'))
    {e : Event} (hevent : r.event rc sys'.daemon.request = some e) :
    e.Fair sys.ledger sys.daemon.core := by
  obtain ⟨call, q, pData, env⟩ := r
  rw [Incoming.event] at hevent
  cases call with
  | attach =>
    dsimp only at hevent
    split_ifs at hevent with hrc hattach hdetach
    · obtain rfl := Option.some.inj hevent
      trivial
    · obtain rfl := Option.some.inj hevent
      intro node hnode hbusy
      have hret := next_detach (r := ⟨.attach, q, pData, env⟩) hrepr rfl hdetach hnode
      rw [hnext, Outcome.ret.injEq, not_not.mp hrc] at hret
      -- a volume in use is only detached by force, and a booked detach does not force
      have hforced := (detachCode_eq_noError_iff.mp hret.symm).2 hbusy
      rw [hbooked.detach rfl hdetach] at hforced
      cases hforced
  | openCreate =>
    dsimp only at hevent
    split_ifs at hevent
    obtain rfl := Option.some.inj hevent
    trivial
  | close =>
    dsimp only at hevent
    split_ifs at hevent
    obtain rfl := Option.some.inj hevent
    exact hbooked.close rfl
  | findFirst =>
    dsimp only at hevent
    split_ifs at hevent
    obtain rfl := Option.some.inj hevent
    trivial
  | findClose =>
    dsimp only at hevent
    split_ifs at hevent
    obtain rfl := Option.some.inj hevent
    exact hbooked.findClose rfl
  | read => cases hevent
  | fileInfo => cases hevent
  | pathInfo => cases hevent
  | fileAttribute => cases hevent
  | chDir => cases hevent
  | findNext => cases hevent
  | findFromName => cases hevent

theorem counted_initial : Counted System.initial.ledger System.initial.daemon.core :=
  ⟨⟨nofun, nofun⟩, ⟨nofun, nofun⟩⟩

/-- A booked request that is answered keeps the tallies. -/
theorem counted_next {sys sys' : System} (h : Counted sys.ledger sys.daemon.core)
    (hrepr : Represents sys.ledger sys.daemon.core) {r : Incoming} (hbooked : Booked sys r)
    {rc : ApiRet} (hnext : sys.next r = (.ret rc, sys')) :
    Counted sys'.ledger sys'.daemon.core := by
  rcases next_replied hnext with ⟨e, hevent, happ, hledger⟩ | ⟨-, hledger, ns, -, hcore, -⟩
  · rw [hledger]
    exact h.applies hrepr (fair_of_booked hrepr hbooked hnext hevent) happ
  · rw [hledger, hcore]
    exact ⟨h.files.congr fun _ => rfl, h.searches.congr fun _ => rfl⟩

theorem reachable_counted {sys : System} (hsys : Reachable Booked sys) :
    Represents sys.ledger sys.daemon.core ∧ Counted sys.ledger sys.daemon.core := by
  refine Transition.invariant_of_step (Step Booked)
    (I := fun sys => Represents sys.ledger sys.daemon.core ∧ Counted sys.ledger sys.daemon.core)
    ?_ hsys ⟨represents_initial, counted_initial⟩
  rintro sys sys' ⟨hrepr, hcounted⟩ ⟨r, rc, hbooked, hnext⟩
  exact ⟨represents_next hrepr hnext, counted_next hcounted hrepr hbooked hnext⟩

/-! ### The bookkeeping -/

/-- A request that fails. A search that has found an entry is open even if its attributes did not
fit. -/
def Fails (r : Incoming) (rc : ApiRet) : Prop :=
  rc ≠ .NO_ERROR ∧ ¬ (r.call = .findFirst ∧ rc = .ERROR_EAS_DIDNT_FIT)

theorem event_of_fails {r : Incoming} {rc : ApiRet} (h : Fails r rc) (reply : Request) :
    r.event rc reply = none := by
  obtain ⟨call, q, pData, env⟩ := r
  obtain ⟨hrc, heas⟩ := h
  rw [Incoming.event]
  cases call with
  | attach => exact if_pos hrc
  | openCreate => exact if_neg hrc
  | close => exact if_neg fun h => hrc h.1
  | findFirst => exact if_neg (not_or.mpr ⟨hrc, fun h => heas ⟨rfl, h⟩⟩)
  | findClose => exact if_neg hrc
  | read => rfl
  | fileInfo => rfl
  | pathInfo => rfl
  | fileAttribute => rfl
  | chDir => rfl
  | findNext => rfl
  | findFromName => rfl

/-- An unforced detach of a drive. -/
structure Detaches (r : Incoming) : Prop where
  call : r.call = .attach
  flag : r.request.fsFlag = FSA_DETACH
  drive : IsDrive r.request.szDev
  forced : isForced r.request r.pData = false

/-- The volume at `v`, and no other, has been detached. -/
structure Removed (v : Ptr) (sys sys' : System) : Prop where
  ledger : sys'.ledger = { sys.ledger with volumes := sys.ledger.volumes.erase v }
  gone : sys'.daemon.core.volumes v = none
  others : ∀ u, u ≠ v → (sys'.daemon.core.volumes u).map VolNode.book =
    (sys.daemon.core.volumes u).map VolNode.book

/-- What the volumes of the daemon have to do with the ledger. -/
structure BookKept (sys : System) : Prop where
  listed : Listed sys.ledger.volumes sys.daemon.core
  counted : ∀ v node, sys.daemon.core.volumes v = some node →
    node.cOpenFiles = Handles.count sys.ledger.files v ∧
      node.cSearches = Handles.count sys.ledger.searches v
  lives : ∀ r, Booked sys r → (sys.next r).1 ≠ .dead
  fails : ∀ r rc sys', sys.next r = (.ret rc, sys') → Fails r rc →
    sys'.daemon.core.pFirstVolume = sys.daemon.core.pFirstVolume ∧
      sys'.daemon.core.volumes = sys.daemon.core.volumes ∧ sys'.ledger = sys.ledger
  detach : ∀ r node, Detaches r → sys.daemon.core.volumes r.request.pVolData = some node →
    ∃ rc sys', sys.next r = (.ret rc, sys') ∧
      (rc = .NO_ERROR ↔ node.cOpenFiles = 0 ∧ node.cSearches = 0) ∧
      (rc = .NO_ERROR → Removed r.request.pVolData sys sys')

/-- A detach that succeeds removes its volume. -/
theorem removed_of_applies {sys sys' : System} {v : Ptr}
    (happ : Applies sys.daemon.core sys'.daemon.core (.detach v))
    (hledger : sys'.ledger = sys.ledger.after (.detach v)) : Removed v sys sys' := by
  obtain ⟨node, hnode, hcore⟩ := happ
  refine ⟨hledger, by rw [hcore]; exact Function.update_self .., fun u hu => ?_⟩
  rw [hcore]
  dsimp only
  rw [Function.update_of_ne hu, volLinks.map_unlink (fun _ _ => rfl) fun _ _ => rfl]

theorem booked_not_closesDetached {sys : System} (h : Counted sys.ledger sys.daemon.core)
    {r : Incoming} (hbooked : Booked sys r) : ¬ ClosesDetached sys r := by
  rintro ⟨hgone, hcall | ⟨hcall, -⟩⟩
  · exact hgone (h.searches.issued _ (hbooked.findClose hcall))
  · exact hgone (h.files.issued _ (hbooked.close hcall))

/-- In a run of booked requests the list holds the attached volumes, each volume counts its open
files and searches, and a volume can be detached when it has none. -/
theorem volumes_bookKept {sys : System} (hsys : Reachable Booked sys) : BookKept sys := by
  obtain ⟨hrepr, hcounted⟩ := reachable_counted hsys
  refine ⟨hrepr.listed, fun v node hv => ?_, fun r hbooked => ?_, fun r rc sys' hnext hfails => ?_,
    fun r node hdetach hnode => ?_⟩
  · exact ⟨hcounted.files.count v _ (by rw [hv]; rfl),
      hcounted.searches.count v _ (by rw [hv]; rfl)⟩
  · exact next_ne_dead_of_ready
      (ready_of_legal hrepr hbooked.legal (booked_not_closesDetached hcounted hbooked))
  · rcases next_replied hnext with ⟨e, hevent, -⟩ | ⟨-, hledger, ns, -, hcore, -⟩
    · rw [event_of_fails hfails] at hevent
      cases hevent
    · rw [hcore]
      exact ⟨rfl, rfl, hledger⟩
  · have hret := next_detach hrepr hdetach.call hdetach.flag hnode
    have hiff : detachCode node r.request r.pData = .NO_ERROR ↔
        node.cOpenFiles = 0 ∧ node.cSearches = 0 := by
      rw [detachCode_eq_noError_iff, and_iff_right hdetach.drive, hdetach.forced, VolNode.Busy,
        ← not_not (a := node.cOpenFiles = 0), ← not_not (a := node.cSearches = 0), ← not_or]
      simp
    refine ⟨_, _, Prod.ext hret rfl, hiff, fun hcode => ?_⟩
    obtain ⟨sys', hnext, happ, hledger⟩ :=
      next_detached hrepr hdetach.call hdetach.flag hnode hcode
    rw [hnext]
    exact removed_of_applies happ hledger

/-- A drive on which a search is open. -/
theorem volumes_bookKept_found :
    ∃ sys p, sys.ledger = ⟨[1], [], [(p, 1)]⟩ ∧ BookKept sys := by
  obtain ⟨sys₁, node, hattach, hledger₁, hnode, hvol⟩ := next_attachRequest
  obtain ⟨rc, p, sys₂, hfind, -, hledger₂⟩ := next_findRequest hnode hvol
  rw [hledger₁] at hledger₂
  have hmem : (1 : Ptr) ∈ sys₁.ledger.volumes := by rw [hledger₁]; exact List.mem_singleton_self 1
  have hbooked₁ : Booked System.initial attachRequest :=
    ⟨fun h => absurd h (by decide), fun _ h => absurd h (by decide), nofun, nofun⟩
  have hbooked₂ : Booked sys₁ findRequest := ⟨hmem, nofun, nofun, nofun⟩
  refine ⟨sys₂, p, hledger₂, volumes_bookKept ?_⟩
  exact (Relation.ReflTransGen.single ⟨attachRequest, _, hbooked₁, hattach⟩).tail
    ⟨findRequest, rc, hbooked₂, hfind⟩

end Isofs.Daemon
