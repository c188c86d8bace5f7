import Isofs.Daemon.Lifetimes

/-!
# Who owns the nodes

Every node of a listing belongs to one open file or one open search, as long as no search is
closed and every search that gets a listing stays open: both leave the nodes of the listing behind.
-/

namespace Isofs.Daemon

/-! ### Events -/

/-- An open search has a list. -/
def HaveLists (c : Core) : Prop := ∀ p ns, c.searches p = some ns → ns ≠ []

theorem HaveLists.applies {c c' : Core} (h : HaveLists c) {e : Event} (happ : Applies c c' e) :
    HaveLists c' := by
  cases e with
  | attach p =>
    obtain ⟨vol, -, -, -, -, rfl⟩ := happ
    exact h
  | detach p =>
    obtain ⟨node, -, rfl⟩ := happ
    exact h
  | «open» v p =>
    obtain ⟨n, -, -, -, rfl⟩ := happ
    exact h
  | close v p =>
    obtain ⟨n, -, -, -, rfl⟩ := happ
    exact h
  | find v p =>
    obtain ⟨ns, -, -, hne, -, rfl⟩ := happ
    intro q ms hq
    dsimp only at hq
    by_cases hqp : q = p
    · rw [hqp, Function.update_self] at hq
      exact Option.some.inj hq ▸ hne
    · rw [Function.update_of_ne hqp] at hq
      exact h q ms hq
  | findClose v p =>
    obtain ⟨-, -, rfl⟩ := happ
    intro q ms hq
    dsimp only at hq
    by_cases hqp : q = p
    · rw [hqp, Function.update_self] at hq
      cases hq
    · rw [Function.update_of_ne hqp] at hq
      exact h q ms hq

/-- Every node has exactly one owner, and what is owned is there. -/
def ExactlyOwned (c : Core) : Prop := ∀ n, Live c.isoDirEntries n ↔ ∃! o, Owns c o n

/-- No node has two owners, so it is enough that every live one has an owner. -/
theorem exactlyOwned_iff {c : Core} (h : Owned c) :
    ExactlyOwned c ↔ ∀ n, Live c.isoDirEntries n → ∃ o, Owns c o n := by
  refine ⟨fun hexact n hn => ((hexact n).mp hn).exists, fun howner n => ⟨fun hn => ?_, ?_⟩⟩
  · obtain ⟨o, ho⟩ := howner n hn
    exact ⟨o, ho, fun o' ho' => h.unique o' o n ho' ho⟩
  · rintro ⟨o, ho, -⟩
    exact h.live o n ho

section Events

variable {c c' : Core}

/-- A change that keeps the owners and the nodes. -/
theorem ExactlyOwned.congr (h : ExactlyOwned c) (hfiles : c'.openFiles = c.openFiles)
    (hsearches : c'.searches = c.searches) (hnodes : c'.isoDirEntries = c.isoDirEntries) :
    ExactlyOwned c' := by
  intro n
  rw [hnodes, h n]
  exact existsUnique_congr fun o => (owns_congr hfiles hsearches o n).symm

/-- New nodes have the owner that takes them over, and the others keep theirs. -/
theorem owner_of_withNodes (h : ExactlyOwned c) {ns : List Ptr} {o : Owner}
    (hnodes : c'.isoDirEntries = (c.withNodes ns).isoDirEntries) (hown : ∀ n ∈ ns, Owns c' o n)
    (hkeep : ∀ o n, Owns c o n → Owns c' o n) (n : Ptr) (hn : Live c'.isoDirEntries n) :
    ∃ o, Owns c' o n := by
  rw [hnodes] at hn
  by_cases hmem : n ∈ ns
  · exact ⟨o, hown n hmem⟩
  · obtain ⟨u, hu⟩ := hn
    obtain ⟨o', ho', -⟩ := (h n).mp ⟨u, (if_neg hmem).symm.trans hu⟩
    exact ⟨o', hkeep o' n ho'⟩

/-- Where nothing is, nothing is owned. -/
theorem owns_update_file {p : Ptr} {x : Option Ptr} (hfree : c.openFiles p = none)
    (hfiles : c'.openFiles = Function.update c.openFiles p x)
    (hsearches : c'.searches = c.searches) (o : Owner) (n : Ptr) (h : Owns c o n) :
    Owns c' o n := by
  cases o with
  | file q =>
    have hq : q ≠ p := by
      rintro rfl
      cases hfree.symm.trans h
    rw [Owns, hfiles, Function.update_of_ne hq]
    exact h
  | search q =>
    rw [Owns, hsearches]
    exact h

theorem owns_update_search {p : Ptr} {x : Option (List Ptr)} (hfree : c.searches p = none)
    (hfiles : c'.openFiles = c.openFiles)
    (hsearches : c'.searches = Function.update c.searches p x) (o : Owner) (n : Ptr)
    (h : Owns c o n) : Owns c' o n := by
  cases o with
  | file q =>
    rw [Owns, hfiles]
    exact h
  | search q =>
    have hq : q ≠ p := by
      rintro rfl
      obtain ⟨ns, hns, -⟩ := h
      cases hfree.symm.trans hns
    rw [Owns, hsearches, Function.update_of_ne hq]
    exact h

/-- Every event but the close of a search keeps it. -/
theorem ExactlyOwned.applies {l : Ledger} (h : ExactlyOwned c) (hrepr : Represents l c)
    {e : Event} (happ : Applies c c' e) (hclose : ∀ v p, e ≠ .findClose v p) :
    ExactlyOwned c' := by
  have howned := exactlyOwned_iff (hrepr.applies happ).owned
  cases e with
  | attach p =>
    obtain ⟨vol, -, -, -, -, rfl⟩ := happ
    exact h.congr rfl rfl rfl
  | detach p =>
    obtain ⟨node, -, rfl⟩ := happ
    exact h.congr rfl rfl rfl
  | «open» v p =>
    obtain ⟨n, -, hfree, -, rfl⟩ := happ
    refine howned.mpr (owner_of_withNodes h (o := .file p) rfl (fun m hm => ?_)
      (owns_update_file hfree rfl rfl))
    rw [List.mem_singleton.mp hm]
    exact Function.update_self ..
  | close v p =>
    obtain ⟨n, -, hfile, -, rfl⟩ := happ
    refine howned.mpr fun m hm => ?_
    -- the node of the file is freed, so what is live belongs to someone else
    have hne : m ≠ n := by
      rintro rfl
      obtain ⟨u, hu⟩ := hm
      dsimp only at hu
      rw [Function.update_self] at hu
      cases hu
    obtain ⟨u, hu⟩ := hm
    dsimp only at hu
    rw [Function.update_of_ne hne] at hu
    obtain ⟨o, ho, -⟩ := (h m).mp ⟨u, hu⟩
    refine ⟨o, ?_⟩
    cases o with
    | file q =>
      have hq : q ≠ p := by
        rintro rfl
        exact hne (Option.some.inj (ho.symm.trans hfile))
      show Function.update c.openFiles p none q = some m
      rw [Function.update_of_ne hq]
      exact ho
    | search q => exact ho
  | find v p =>
    obtain ⟨ns, -, hfree, -, -, rfl⟩ := happ
    refine howned.mpr (owner_of_withNodes h (o := .search p) rfl (fun m hm => ⟨ns, ?_, hm⟩)
      (owns_update_search hfree rfl rfl))
    exact Function.update_self ..
  | findClose v p => exact absurd rfl (hclose v p)

/-- The close of a search leaves the nodes of its list without an owner. -/
theorem not_exactlyOwned_of_findClose (h : Owned c) (hlists : HaveLists c) {v p : Ptr}
    (happ : Applies c c' (.findClose v p)) : ¬ ExactlyOwned c' := by
  obtain ⟨-, ⟨ns, hns⟩, rfl⟩ := happ
  intro h'
  obtain ⟨n, hn⟩ := List.exists_mem_of_ne_nil ns (hlists p ns hns)
  have hown : Owns c (.search p) n := ⟨ns, hns, hn⟩
  obtain ⟨o, ho, -⟩ := (h' n).mp (h.live _ n hown)
  -- the owner of such a node would have owned it before
  have hold : Owns c o n ∧ o ≠ .search p := by
    cases o with
    | file q => exact ⟨ho, nofun⟩
    | search q =>
      obtain ⟨ms, hms, hm⟩ := ho
      dsimp only at hms
      have hq : q ≠ p := by
        rintro rfl
        rw [Function.update_self] at hms
        cases hms
      rw [Function.update_of_ne hq] at hms
      exact ⟨⟨ms, hms, hm⟩, fun hq' => hq (Owner.search.inj hq')⟩
  exact hold.2 (h.unique o _ n hold.1 hown)

/-- Nodes that nobody takes over have no owner. -/
theorem not_exactlyOwned_of_withNodes (h : Owned c) {ns : List Ptr} (hne : ns ≠ [])
    (hfresh : Fresh c ns) : ¬ ExactlyOwned (c.withNodes ns) := by
  intro h'
  obtain ⟨n, hn⟩ := List.exists_mem_of_ne_nil ns hne
  obtain ⟨o, ho, -⟩ := (h' n).mp ⟨(), if_pos hn⟩
  obtain ⟨u, hu⟩ := h.live o n ((owns_congr rfl rfl o n).mp ho)
  cases (hfresh.2 n hn).symm.trans hu

end Events

/-! ### Requests -/

/-- A request of a client that uses its handles while they and their volumes are there, and that
finds memory. -/
structure Sound (sys : System) (r : Incoming) : Prop where
  legal : Legal sys r
  attached : ¬ ClosesDetached sys r
  malloc : r.env.malloc = true

/-- A search in a directory that is not empty, none of whose entries it can deliver. -/
def FindsNothing (sys : System) (r : Incoming) : Prop :=
  r.call = .findFirst ∧ ∃ entries, SearchedEntries sys.daemon.core r entries ∧ entries ≠ [] ∧
    ¬ FirstFits r entries

theorem leaks_iff (sys : System) (r : Incoming) :
    Leaks sys.daemon.core r ↔ FindsNothing sys r := by
  simp only [Leaks, FindsNothing, firstBatchFails_iff]

/-- A search that finds nothing is not opened. -/
theorem event_of_findsNothing {sys sys' : System} (hrepr : Represents sys.ledger sys.daemon.core)
    {r : Incoming} {rc : ApiRet} (hnext : sys.next r = (.ret rc, sys'))
    (hnothing : FindsNothing sys r) : r.event rc sys'.daemon.request = none := by
  obtain ⟨hcall, entries, hsearched, hne, hfits⟩ := hnothing
  obtain ⟨node, pos, hnode, hrest⟩ := hsearched
  have hrc := next_findFirst hcall hnode (hrepr.listed.level _ node hnode).2
    ⟨node, pos, hnode, hrest⟩ hne
  rw [hnext, Outcome.ret.injEq] at hrc
  have hstores : ¬ Stores rc := by
    rw [hrc, stores_storeMatches]
    exact hfits
  rw [Incoming.event, hcall]
  exact if_neg hstores

/-- The event of a request that closes a search, and of no other. -/
theorem event_eq_findClose {r : Incoming} {rc : ApiRet} {reply : Request} {v p : Ptr}
    (h : r.event rc reply = some (.findClose v p)) : r.call = .findClose := by
  obtain ⟨call, q, pData, env⟩ := r
  rw [Incoming.event] at h
  cases call with
  | findClose => rfl
  | attach =>
    dsimp only at h
    split_ifs at h <;> cases h
  | openCreate =>
    dsimp only at h
    split_ifs at h
    cases h
  | close =>
    dsimp only at h
    split_ifs at h
    cases h
  | findFirst =>
    dsimp only at h
    split_ifs at h
    cases h
  | read => cases h
  | fileInfo => cases h
  | pathInfo => cases h
  | fileAttribute => cases h
  | chDir => cases h
  | findNext => cases h
  | findFromName => cases h

/-- The close of a search is always answered with success. -/
theorem next_findClose {sys : System} (hrepr : Represents sys.ledger sys.daemon.core)
    {r : Incoming} (hsound : Sound sys r) (hcall : r.call = .findClose) :
    (sys.next r).1 = .ret .NO_ERROR := by
  have hready := ready_of_legal hrepr hsound.legal hsound.attached
  obtain ⟨call, q, pData, env⟩ := r
  obtain rfl : call = .findClose := hcall
  obtain ⟨hsearch, hvol⟩ := hready
  dsimp only at hsearch hvol
  refine next_of_endsIn fun s hs hq _ => ?_
  dsimp only at hq
  subst hq
  rw [← hs] at hsearch hvol
  exact fsFindClose_ends hsearch (fun h => absurd hvol h) fun _ => rfl

/-- A sound request keeps the nodes owned, unless it closes a search or finds nothing. -/
theorem exactlyOwned_next_iff {sys sys' : System} (h : ExactlyOwned sys.daemon.core)
    (hrepr : Represents sys.ledger sys.daemon.core) (hlists : HaveLists sys.daemon.core)
    {r : Incoming} (hsound : Sound sys r) {rc : ApiRet} (hnext : sys.next r = (.ret rc, sys')) :
    ExactlyOwned sys'.daemon.core ↔ ¬ (r.call = .findClose ∨ FindsNothing sys r) := by
  rcases next_replied hnext with ⟨e, hevent, happ, -⟩ | ⟨hevent, -, ns, hfresh, hcore, hleaks⟩
  · have hnothing : ¬ FindsNothing sys r := fun hnothing => by
      cases hevent.symm.trans (event_of_findsNothing hrepr hnext hnothing)
    rw [or_iff_left hnothing]
    refine ⟨fun h' hcall => ?_, fun hcall => ?_⟩
    · have hrc := next_findClose hrepr hsound hcall
      rw [hnext, Outcome.ret.injEq] at hrc
      rw [Incoming.event, hcall, hrc] at hevent
      obtain rfl := Option.some.inj hevent
      exact not_exactlyOwned_of_findClose hrepr.owned hlists happ h'
    · refine h.applies hrepr happ fun v p he => hcall ?_
      rw [he] at hevent
      exact event_eq_findClose hevent
  · have hcall : r.call ≠ .findClose := fun hcall => by
      have hrc := next_findClose hrepr hsound hcall
      rw [hnext, Outcome.ret.injEq] at hrc
      rw [Incoming.event, hcall, hrc] at hevent
      cases hevent
    rw [or_iff_right hcall, ← leaks_iff, ← hleaks hsound.malloc, hcore]
    refine ⟨fun h' => ?_, ?_⟩
    · by_contra hne
      exact not_exactlyOwned_of_withNodes hrepr.owned hne hfresh h'
    · rintro rfl
      exact h

/-- A sound request that leaves no node behind. -/
structure Tidy (sys : System) (r : Incoming) : Prop extends Sound sys r where
  notFindClose : r.call ≠ .findClose
  finds : ¬ FindsNothing sys r

/-- Open searches have lists in every run, whatever the requests. -/
theorem reachable_haveLists {may : System → Incoming → Prop} {sys : System}
    (hsys : Reachable may sys) : HaveLists sys.daemon.core := by
  refine Transition.invariant_of_step (Step may) (I := fun sys => HaveLists sys.daemon.core) ?_
    hsys nofun
  rintro sys sys' hlists ⟨r, rc, -, hnext⟩
  rcases next_replied hnext with ⟨e, -, happ, -⟩ | ⟨-, -, ns, -, hcore, -⟩
  · exact hlists.applies happ
  · rw [hcore]
    exact hlists

theorem exactlyOwned_initial : ExactlyOwned System.initial.daemon.core := by
  refine (exactlyOwned_iff represents_initial.owned).mpr ?_
  rintro n ⟨u, hu⟩
  cases hu

theorem reachable_exactlyOwned {sys : System} (hsys : Reachable Tidy sys) :
    ExactlyOwned sys.daemon.core := by
  induction hsys with
  | refl => exact exactlyOwned_initial
  | tail hrun hstep ih =>
    obtain ⟨r, rc, htidy, hnext⟩ := hstep
    exact (exactlyOwned_next_iff ih (reachable_represents hrun) (reachable_haveLists hrun)
      htidy.toSound hnext).mpr (not_or.mpr ⟨htidy.notFindClose, htidy.finds⟩)

/-- The live nodes are those of the open files and of the open searches, each owned once. -/
structure NodesOwned (sys : System) : Prop where
  files : InUse sys.ledger.files sys.daemon.core.openFiles
  searches : InUse sys.ledger.searches sys.daemon.core.searches
  nodes : ExactlyOwned sys.daemon.core

/-- When everything is closed no node is live. -/
theorem NodesOwned.none_live {sys : System} (h : NodesOwned sys) (hfiles : sys.ledger.files = [])
    (hsearches : sys.ledger.searches = []) (n : Ptr) : ¬ Live sys.daemon.core.isoDirEntries n := by
  intro hn
  obtain ⟨o, ho, -⟩ := (h.nodes n).mp hn
  cases o with
  | file p =>
    have hp := (h.files.live p).mp ⟨n, ho⟩
    rw [hfiles] at hp
    exact List.not_mem_nil hp
  | search p =>
    obtain ⟨ns, hns, -⟩ := ho
    have hp := (h.searches.live p).mp ⟨ns, hns⟩
    rw [hsearches] at hp
    exact List.not_mem_nil hp

/-- In a run of tidy requests every live node is owned by one open file or one open search. No
sound request uses a node that is gone, and it leaves the nodes owned exactly when it is tidy. -/
theorem listings_owned {sys : System} (hsys : Reachable Tidy sys) :
    NodesOwned sys ∧
      (sys.ledger.files = [] → sys.ledger.searches = [] →
        ∀ n, ¬ Live sys.daemon.core.isoDirEntries n) ∧
      ∀ r, Sound sys r → (sys.next r).1 ≠ .dead ∧
        ∀ rc sys', sys.next r = (.ret rc, sys') → (NodesOwned sys' ↔ Tidy sys r) := by
  have hrepr := reachable_represents hsys
  have howned := reachable_exactlyOwned hsys
  have hnodes : NodesOwned sys := ⟨hrepr.files, hrepr.searches, howned⟩
  refine ⟨hnodes, hnodes.none_live, fun r hsound => ⟨?_, fun rc sys' hnext => ?_⟩⟩
  · exact next_ne_dead_of_ready (ready_of_legal hrepr hsound.legal hsound.attached)
  · have hrepr' := represents_next hrepr hnext
    have hiff := exactlyOwned_next_iff howned hrepr (reachable_haveLists hsys) hsound hnext
    constructor
    · intro h
      obtain ⟨hclose, hfinds⟩ := not_or.mp (hiff.mp h.nodes)
      exact ⟨hsound, hclose, hfinds⟩
    · intro h
      exact ⟨hrepr'.files, hrepr'.searches, hiff.mpr (not_or.mpr ⟨h.notFindClose, h.finds⟩)⟩

/-- The search for `A` leaves nothing behind while it is open. -/
theorem exists_open_search : ∃ sys p, Reachable Tidy sys ∧ Sound sys (findCloseRequest p) := by
  obtain ⟨sys₁, node, hattach, hledger₁, hnode, hvol⟩ := next_attachRequest
  obtain ⟨rc, p, sys₂, hfind, happ, hledger₂⟩ := next_findRequest hnode hvol
  rw [hledger₁] at hledger₂
  have hmem : (1 : Ptr) ∈ sys₁.ledger.volumes := by rw [hledger₁]; exact List.mem_singleton_self 1
  have htidy₁ : Tidy System.initial attachRequest :=
    ⟨⟨fun h => absurd h (by decide), fun h => h.2.elim nofun fun h => (nomatch h.1), rfl⟩, nofun,
      fun h => nomatch h.1⟩
  have hreach₁ : Reachable Tidy sys₁ := .single ⟨attachRequest, _, htidy₁, hattach⟩
  have hsound₂ : Sound sys₁ findRequest :=
    ⟨hmem, fun h => h.2.elim nofun fun h => (nomatch h.1), rfl⟩
  have hevent : findRequest.event rc sys₂.daemon.request ≠ none := by
    intro hnone
    rcases next_replied hfind with ⟨e, he, -⟩ | ⟨-, hsame, -⟩
    · cases hnone.symm.trans he
    · rw [hledger₁, hledger₂] at hsame
      cases hsame
  have htidy₂ : Tidy sys₁ findRequest := ⟨hsound₂, nofun, fun hnothing =>
    hevent (event_of_findsNothing (reachable_represents hreach₁) hfind hnothing)⟩
  refine ⟨sys₂, p, hreach₁.tail ⟨findRequest, rc, htidy₂, hfind⟩, ?_⟩
  have hmem₂ : (1 : Ptr) ∈ sys₂.ledger.volumes := by rw [hledger₂]; exact List.mem_singleton_self 1
  have hsearch : (p, (1 : Ptr)) ∈ sys₂.ledger.searches := by
    rw [hledger₂]
    exact List.mem_singleton_self _
  exact ⟨⟨List.mem_map_of_mem hsearch, Or.inl hmem₂⟩, fun h => h.1 hmem₂, rfl⟩

/-- The nodes while the search is open, and the close of the search. -/
theorem listings_owned_findClose : ∃ (sys : System) (p : Ptr), NodesOwned sys ∧
    (sys.next (findCloseRequest p)).1 ≠ .dead := by
  obtain ⟨sys, p, hsys, hsound⟩ := exists_open_search
  obtain ⟨hnodes, -, hclose⟩ := listings_owned hsys
  exact ⟨sys, p, hnodes, (hclose _ hsound).1⟩

/-- A search that is closed leaves the nodes of its list behind. -/
theorem findClose_leaves_nodes :
    ¬ ∀ sys, Reachable Sound sys → ExactlyOwned sys.daemon.core := by
  intro h
  obtain ⟨sys, p, hsys, hsound⟩ := exists_open_search
  have hrepr := reachable_represents hsys
  have hnext : sys.next (findCloseRequest p) =
      (.ret .NO_ERROR, (sys.next (findCloseRequest p)).2) :=
    Prod.ext (next_findClose hrepr hsound rfl) rfl
  have hsys' : Reachable Sound sys := hsys.mono fun _ _ h => h.toSound
  have howned := h _ (hsys'.tail ⟨findCloseRequest p, _, hsound, hnext⟩)
  exact (exactlyOwned_next_iff (reachable_exactlyOwned hsys) hrepr (reachable_haveLists hsys) hsound
    hnext).mp howned (Or.inl rfl)

end Isofs.Daemon
