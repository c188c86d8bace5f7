import Isofs.Daemon.Ledger

/-!
# The daemon refines the ledger

Every event keeps three things: the list holds the attached volumes, the objects are those that
are open, and no node has two owners.
-/

namespace Isofs.Daemon

/-! ### The list of volumes -/

/-- The list holds the attached volumes, each of a known level. -/
structure Listed (vs : List Ptr) (c : Core) : Prop where
  linked : volLinks.Linked c.volumes 0 c.pFirstVolume vs
  nodup : vs.Nodup
  live : ∀ p, Live c.volumes p ↔ p ∈ vs
  level : ∀ p node, c.volumes p = some node → 1 ≤ node.vol.ucsLevel ∧ node.vol.ucsLevel ≤ 3

/-- What a volume is apart from its links. -/
def VolNode.book (node : VolNode) : MountedVolume × ℤ × ℤ :=
  (node.vol, node.cOpenFiles, node.cSearches)

theorem live_iff_map {α β : Type} {objects : Ptr → Option α} {f : α → β} {p : Ptr} :
    Live objects p ↔ ∃ b, (objects p).map f = some b := by
  constructor
  · rintro ⟨a, ha⟩
    exact ⟨f a, by rw [ha]; rfl⟩
  · rintro ⟨b, hb⟩
    obtain ⟨a, ha, -⟩ := Option.map_eq_some_iff.mp hb
    exact ⟨a, ha⟩

/-- The level of a volume, from its book. -/
theorem level_of_book {old : Option VolNode} {node' : VolNode}
    (hbook : (some node').map VolNode.book = old.map VolNode.book) :
    ∃ node, old = some node ∧ node.vol = node'.vol := by
  obtain ⟨node, hold, hbook⟩ := Option.map_eq_some_iff.mp hbook.symm
  exact ⟨node, hold, congrArg Prod.fst hbook⟩

variable {vs : List Ptr} {c c' : Core}

theorem Listed.attach (h : Listed vs c) {p : Ptr} (hp : p ≠ 0) (hfree : c.volumes p = none)
    {vol : MountedVolume} (hpos : 1 ≤ vol.ucsLevel) (hle : vol.ucsLevel ≤ 3) :
    Listed (p :: vs) { c with
      pFirstVolume := p
      volumes := volLinks.push c.volumes c.pFirstVolume p (newVolume c.pFirstVolume vol) } := by
  have hmem : p ∉ vs := by
    intro hp
    obtain ⟨node, hnode⟩ := (h.live p).mpr hp
    rw [hfree] at hnode
    cases hnode
  have hbook := volLinks.map_push (f := VolNode.book) (fun _ _ => rfl) c.volumes
    c.pFirstVolume p (newVolume c.pFirstVolume vol)
  refine ⟨h.linked.push h.nodup hp hmem rfl rfl, List.nodup_cons.mpr ⟨hmem, h.nodup⟩,
    fun q => ?_, fun q node hnode => ?_⟩
  · rw [live_iff_map (f := VolNode.book), hbook, List.mem_cons]
    by_cases hq : q = p
    · rw [if_pos hq]
      exact iff_of_true ⟨_, rfl⟩ (Or.inl hq)
    · rw [if_neg hq, ← live_iff_map, h.live, or_iff_right hq]
  · have hq := hbook q
    by_cases hqp : q = p
    · rw [if_pos hqp] at hq
      dsimp only at hnode
      rw [hnode] at hq
      have hvol : node.vol = vol := congrArg Prod.fst (Option.some.inj hq)
      rw [hvol]
      exact ⟨hpos, hle⟩
    · rw [if_neg hqp] at hq
      obtain ⟨old, hold, hvol⟩ := level_of_book ((congrArg _ hnode).symm.trans hq)
      rw [← hvol]
      exact h.level q old hold

theorem Listed.detach (h : Listed vs c) {p : Ptr} {node : VolNode}
    (hnode : c.volumes p = some node) :
    Listed (vs.erase p) { c with
      pFirstVolume := if node.pPrev ≠ 0 then c.pFirstVolume else node.pNext
      volumes := Function.update (volLinks.unlink c.volumes node) p none } := by
  obtain ⟨xs, ys, rfl⟩ := List.append_of_mem ((h.live p).mp ⟨node, hnode⟩)
  have hnodup := h.nodup
  have hp : p ∉ xs ++ ys := by
    have h := List.nodup_middle.mp hnodup
    exact (List.nodup_cons.mp h).1
  have hpx : p ∉ xs := fun hx => hp (List.mem_append_left ys hx)
  have hne : ∀ q ∈ xs ++ p :: ys, q ≠ 0 := fun q hq => (h.linked.live q hq).1
  have herase : (xs ++ p :: ys).erase p = xs ++ ys := by
    rw [List.erase_append_right _ hpx, List.erase_cons_head]
  have hbook := volLinks.map_unlink (f := VolNode.book) (fun _ _ => rfl)
    (fun _ _ => rfl) c.volumes node
  have hlinks := h.linked.links hnode
  -- `detachVolume` asks whether there is a node before it, the list whether `xs` is empty
  have hfirst : (if node.pPrev ≠ 0 then c.pFirstVolume else node.pNext) =
      if xs = [] then node.pNext else c.pFirstVolume := by
    have hprev : node.pPrev = xs.getLastD 0 := hlinks.1
    cases xs with
    | nil =>
      have hnull : node.pPrev = 0 := hprev
      rw [if_pos rfl, if_neg (not_not.mpr hnull)]
    | cons x xs =>
      rw [if_neg (List.cons_ne_nil x xs), if_pos]
      rw [hprev, List.getLastD_cons]
      exact hne _ (List.mem_append_left _ List.getLastD_mem_cons)
  rw [herase]
  refine ⟨?_, (List.nodup_cons.mp (List.nodup_middle.mp hnodup)).2, fun q => ?_,
    fun q old hold => ?_⟩
  · show volLinks.Linked _ 0 (if node.pPrev ≠ 0 then c.pFirstVolume else node.pNext) _
    rw [hfirst]
    refine (h.linked.unlink hnode (List.nodup_cons.mpr ⟨fun h0 => hne 0 h0 rfl, hnodup⟩)).frame
      fun q hq => Function.update_of_ne ?_ ..
    rintro rfl
    exact hp hq
  · by_cases hq : q = p
    · subst hq
      refine iff_of_false ?_ hp
      rintro ⟨old, hold⟩
      dsimp only at hold
      rw [Function.update_self] at hold
      cases hold
    · rw [live_iff_map (f := VolNode.book)]
      dsimp only
      rw [Function.update_of_ne hq, hbook, ← live_iff_map, h.live, List.mem_append, List.mem_cons,
        List.mem_append, or_iff_right hq]
  · dsimp only at hold
    by_cases hq : q = p
    · rw [hq, Function.update_self] at hold
      cases hold
    · rw [Function.update_of_ne hq] at hold
      obtain ⟨before, hbefore, hvol⟩ := level_of_book ((congrArg _ hold).symm.trans (hbook q))
      rw [← hvol]
      exact h.level q before hbefore

/-- Changing what is neither a link nor the image of a volume keeps the list. -/
theorem Listed.modify (h : Listed vs c) {v : Ptr} {f : VolNode → VolNode}
    (hvol : ∀ node, (f node).vol = node.vol) (hnext : ∀ node, (f node).pNext = node.pNext)
    (hprev : ∀ node, (f node).pPrev = node.pPrev) (hfirst : c'.pFirstVolume = c.pFirstVolume)
    (hvolumes : c'.volumes = Function.update c.volumes v ((c.volumes v).map f)) :
    Listed vs c' := by
  have hmap {q : Ptr} {node : VolNode} (hnode : c.volumes q = some node) :
      ∃ node', c'.volumes q = some node' ∧ node'.vol = node.vol ∧ node'.pNext = node.pNext ∧
        node'.pPrev = node.pPrev := by
    rw [hvolumes]
    by_cases hq : q = v
    · subst hq
      exact ⟨f node, by rw [Function.update_self, hnode]; rfl, hvol node, hnext node, hprev node⟩
    · exact ⟨node, by rw [Function.update_of_ne hq, hnode], rfl, rfl, rfl⟩
  -- the same volumes are in the list before and after
  have hback {q : Ptr} (hlive : Live c'.volumes q) : Live c.volumes q := by
    obtain ⟨node', hnode'⟩ := hlive
    rw [hvolumes] at hnode'
    by_cases hq : q = v
    · subst hq
      rw [Function.update_self] at hnode'
      obtain ⟨node, hnode, -⟩ := Option.map_eq_some_iff.mp hnode'
      exact ⟨node, hnode⟩
    · rw [Function.update_of_ne hq] at hnode'
      exact ⟨node', hnode'⟩
  refine ⟨?_, h.nodup, fun q => ?_, fun q node' hnode' => ?_⟩
  · rw [hfirst]
    refine h.linked.congr fun q _ node hnode => ?_
    obtain ⟨node', hnode', -, hn, hp⟩ := hmap hnode
    exact ⟨node', hnode', hn, hp⟩
  · rw [← h.live]
    refine ⟨hback, ?_⟩
    rintro ⟨node, hnode⟩
    obtain ⟨node', hnode', -⟩ := hmap hnode
    exact ⟨node', hnode'⟩
  · obtain ⟨node, hnode⟩ := hback ⟨node', hnode'⟩
    obtain ⟨node'', hnode'', hv, -⟩ := hmap hnode
    obtain rfl := Option.some.inj (hnode'.symm.trans hnode'')
    rw [hv]
    exact h.level q node hnode

theorem Listed.countFiles (h : Listed vs c) {v : Ptr} {n : ℤ}
    (hfirst : c'.pFirstVolume = c.pFirstVolume)
    (hvolumes : c'.volumes = (c.countFiles v n).volumes) : Listed vs c' :=
  h.modify (f := fun node => { node with cOpenFiles := node.cOpenFiles + n }) (fun _ => rfl)
    (fun _ => rfl) (fun _ => rfl) hfirst hvolumes

theorem Listed.countSearches (h : Listed vs c) {v : Ptr} {n : ℤ}
    (hfirst : c'.pFirstVolume = c.pFirstVolume)
    (hvolumes : c'.volumes = (c.countSearches v n).volumes) : Listed vs c' :=
  h.modify (f := fun node => { node with cSearches := node.cSearches + n }) (fun _ => rfl)
    (fun _ => rfl) (fun _ => rfl) hfirst hvolumes

/-- Every event keeps the list. -/
theorem Listed.applies {l : Ledger} (h : Listed l.volumes c) {e : Event} (happ : Applies c c' e) :
    Listed (l.after e).volumes c' := by
  cases e with
  | attach p =>
    obtain ⟨vol, hp, hfree, hpos, hle, rfl⟩ := happ
    exact h.attach hp hfree hpos hle
  | detach p =>
    obtain ⟨node, hnode, rfl⟩ := happ
    exact h.detach hnode
  | «open» v p =>
    obtain ⟨n, -, -, -, rfl⟩ := happ
    exact h.countFiles rfl rfl
  | close v p =>
    obtain ⟨n, -, -, -, rfl⟩ := happ
    exact h.countFiles rfl rfl
  | find v p =>
    obtain ⟨ns, -, -, -, -, rfl⟩ := happ
    exact h.countSearches rfl rfl
  | findClose v p =>
    obtain ⟨-, -, rfl⟩ := happ
    exact h.countSearches rfl rfl

/-! ### Handles -/

/-- The handles are those of the objects that are there, once each. -/
structure InUse {β : Type} (hs : Handles) (objects : Ptr → Option β) : Prop where
  live : ∀ p, Live objects p ↔ p ∈ Handles.addresses hs
  nodup : (Handles.addresses hs).Nodup

theorem InUse.issue {β : Type} {hs : Handles} {objects : Ptr → Option β} (h : InUse hs objects)
    {p : Ptr} (hfree : objects p = none) (v : Ptr) (b : β) :
    InUse ((p, v) :: hs) (Function.update objects p (some b)) := by
  have hmem : p ∉ Handles.addresses hs := by
    intro hp
    obtain ⟨b, hb⟩ := (h.live p).mpr hp
    rw [hfree] at hb
    cases hb
  refine ⟨fun q => ?_, List.nodup_cons.mpr ⟨hmem, h.nodup⟩⟩
  show Live _ q ↔ q ∈ p :: Handles.addresses hs
  rw [List.mem_cons]
  by_cases hq : q = p
  · exact iff_of_true ⟨b, by rw [hq, Function.update_self]⟩ (Or.inl hq)
  · rw [Live, Function.update_of_ne hq, or_iff_right hq]
    exact h.live q

theorem addresses_release (hs : Handles) (p : Ptr) :
    Handles.addresses (Handles.release hs p) = (Handles.addresses hs).filter (· ≠ p) :=
  (List.filter_map (p := fun q => decide (q ≠ p)) (f := Prod.fst) (l := hs)).symm

theorem InUse.release {β : Type} {hs : Handles} {objects : Ptr → Option β} (h : InUse hs objects)
    (p : Ptr) : InUse (Handles.release hs p) (Function.update objects p none) := by
  refine ⟨fun q => ?_, ?_⟩
  · rw [addresses_release, List.mem_filter, decide_eq_true_eq]
    by_cases hq : q = p
    · refine iff_of_false ?_ fun hmem => hmem.2 hq
      rintro ⟨b, hb⟩
      rw [hq, Function.update_self] at hb
      cases hb
    · rw [Live, Function.update_of_ne hq, and_iff_left hq]
      exact h.live q
  · rw [addresses_release]
    exact h.nodup.filter _

/-! ### Owners -/

/-- An object that owns nodes. -/
inductive Owner where
  | file (p : Ptr)
  | search (p : Ptr)

/-- The nodes that an object owns. -/
def Owns (c : Core) : Owner → Ptr → Prop
  | .file p, n => c.openFiles p = some n
  | .search p, n => ∃ ns, c.searches p = some ns ∧ n ∈ ns

/-- What is owned is there, and has one owner. -/
structure Owned (c : Core) : Prop where
  live : ∀ o n, Owns c o n → Live c.isoDirEntries n
  unique : ∀ o o' n, Owns c o n → Owns c o' n → o = o'

theorem owns_congr (hfiles : c'.openFiles = c.openFiles) (hsearches : c'.searches = c.searches)
    (o : Owner) (n : Ptr) : Owns c' o n ↔ Owns c o n := by
  cases o with
  | file p => rw [Owns, Owns, hfiles]
  | search p => rw [Owns, Owns, hsearches]

theorem Owned.congr (h : Owned c) (hfiles : c'.openFiles = c.openFiles)
    (hsearches : c'.searches = c.searches) (hnodes : c'.isoDirEntries = c.isoDirEntries) :
    Owned c' := by
  have hiff := owns_congr hfiles hsearches
  refine ⟨fun o n hown => ?_, fun o o' n hown hown' => ?_⟩
  · rw [hnodes]
    exact h.live o n ((hiff o n).mp hown)
  · exact h.unique o o' n ((hiff o n).mp hown) ((hiff o' n).mp hown')

/-- New nodes have no owner. -/
theorem Owned.withNodes (h : Owned c) (ns : List Ptr) : Owned (c.withNodes ns) := by
  have hiff := @owns_congr c (c.withNodes ns) rfl rfl
  refine ⟨fun o n hown => ?_, fun o o' n hown hown' => ?_⟩
  · obtain ⟨u, hu⟩ := h.live o n ((hiff o n).mp hown)
    by_cases hn : n ∈ ns
    · exact ⟨(), if_pos hn⟩
    · exact ⟨u, (if_neg hn).trans hu⟩
  · exact h.unique o o' n ((hiff o n).mp hown) ((hiff o' n).mp hown')

/-- An object that takes over new nodes. -/
theorem Owned.take (h : Owned c) {ns : List Ptr} (hfresh : Fresh c ns) {o : Owner}
    (hnodes : c'.isoDirEntries = (c.withNodes ns).isoDirEntries)
    (hown : ∀ n, Owns c' o n → n ∈ ns) (hother : ∀ o' n, o' ≠ o → Owns c' o' n → Owns c o' n) :
    Owned c' := by
  have hold {o' : Owner} {n : Ptr} (hc : Owns c o' n) : n ∉ ns := by
    intro hn
    obtain ⟨u, hu⟩ := h.live o' n hc
    rw [hfresh.2 n hn] at hu
    cases hu
  refine ⟨fun o' n hc => ?_, fun o₁ o₂ n h₁ h₂ => ?_⟩
  · rw [hnodes]
    by_cases ho : o' = o
    · exact ⟨(), if_pos (hown n (ho ▸ hc))⟩
    · exact (h.withNodes ns).live o' n (by cases o' <;> exact hother _ n ho hc)
  · by_cases ho₁ : o₁ = o
    · by_cases ho₂ : o₂ = o
      · rw [ho₁, ho₂]
      · exact absurd (hown n (ho₁ ▸ h₁)) (hold (hother o₂ n ho₂ h₂))
    · by_cases ho₂ : o₂ = o
      · exact absurd (hown n (ho₂ ▸ h₂)) (hold (hother o₁ n ho₁ h₁))
      · exact h.unique o₁ o₂ n (hother o₁ n ho₁ h₁) (hother o₂ n ho₂ h₂)

/-- An object that goes with its nodes, or without them. -/
theorem Owned.drop (h : Owned c) {o : Owner}
    (hnodes : ∀ n, ¬ Owns c o n → c'.isoDirEntries n = c.isoDirEntries n)
    (hown : ∀ n, ¬ Owns c' o n) (hother : ∀ o' n, o' ≠ o → Owns c' o' n → Owns c o' n) :
    Owned c' := by
  have hback {o' : Owner} {n : Ptr} (hc : Owns c' o' n) : o' ≠ o ∧ Owns c o' n := by
    have ho : o' ≠ o := by
      rintro rfl
      exact hown n hc
    exact ⟨ho, hother o' n ho hc⟩
  refine ⟨fun o' n hc => ?_, fun o₁ o₂ n h₁ h₂ =>
    h.unique o₁ o₂ n (hback h₁).2 (hback h₂).2⟩
  obtain ⟨ho, hc⟩ := hback hc
  rw [Live, hnodes n fun hn => ho (h.unique o' o n hc hn)]
  exact h.live o' n hc

/-- A file, and no other object, is changed at `p`. -/
theorem owns_of_update_file {x : Option Ptr} {p : Ptr} {o : Owner} {n : Ptr}
    (h : Owns c' o n) (ho : o ≠ .file p) (hfiles : c'.openFiles = Function.update c.openFiles p x)
    (hsearches : c'.searches = c.searches) : Owns c o n := by
  cases o with
  | file q =>
    have hq : q ≠ p := fun hq => ho (congrArg Owner.file hq)
    rw [Owns, hfiles, Function.update_of_ne hq] at h
    exact h
  | search q =>
    rw [Owns, hsearches] at h
    exact h

/-- A search, and no other object, is changed at `p`. -/
theorem owns_of_update_search {x : Option (List Ptr)} {p : Ptr} {o : Owner} {n : Ptr}
    (h : Owns c' o n) (ho : o ≠ .search p) (hfiles : c'.openFiles = c.openFiles)
    (hsearches : c'.searches = Function.update c.searches p x) : Owns c o n := by
  cases o with
  | file q =>
    rw [Owns, hfiles] at h
    exact h
  | search q =>
    have hq : q ≠ p := fun hq => ho (congrArg Owner.search hq)
    rw [Owns, hsearches, Function.update_of_ne hq] at h
    exact h

/-! ### The refinement -/

/-- The daemon refines the ledger. -/
structure Represents (l : Ledger) (c : Core) : Prop where
  listed : Listed l.volumes c
  files : InUse l.files c.openFiles
  searches : InUse l.searches c.searches
  owned : Owned c

theorem Represents.withNodes {l : Ledger} (h : Represents l c) (ns : List Ptr) :
    Represents l (c.withNodes ns) :=
  ⟨⟨h.listed.linked, h.listed.nodup, h.listed.live, h.listed.level⟩, h.files, h.searches,
    h.owned.withNodes ns⟩

/-- Every event keeps the refinement. -/
theorem Represents.applies {l : Ledger} (h : Represents l c) {e : Event} (happ : Applies c c' e) :
    Represents (l.after e) c' := by
  have hlisted := h.listed.applies happ
  cases e with
  | attach p =>
    obtain ⟨vol, -, -, -, -, rfl⟩ := happ
    exact ⟨hlisted, h.files, h.searches, h.owned.congr rfl rfl rfl⟩
  | detach p =>
    obtain ⟨node, -, rfl⟩ := happ
    exact ⟨hlisted, h.files, h.searches, h.owned.congr rfl rfl rfl⟩
  | «open» v p =>
    obtain ⟨n, -, hfree, hfresh, rfl⟩ := happ
    refine ⟨hlisted, h.files.issue hfree v n, h.searches,
      h.owned.take (o := .file p) hfresh rfl (fun m hm => ?_) fun o' m ho hm => ?_⟩
    · have hm : Function.update c.openFiles p (some n) p = some m := hm
      rw [Function.update_self, Option.some.injEq] at hm
      exact hm ▸ List.mem_cons_self
    · exact owns_of_update_file hm ho rfl rfl
  | close v p =>
    obtain ⟨n, -, hfile, -, rfl⟩ := happ
    refine ⟨hlisted, h.files.release p, h.searches,
      h.owned.drop (o := .file p) (fun m hm => ?_) (fun m hm => ?_) fun o' m ho hm => ?_⟩
    · refine Function.update_of_ne ?_ ..
      rintro rfl
      exact hm hfile
    · have hm : Function.update c.openFiles p none p = some m := hm
      rw [Function.update_self] at hm
      cases hm
    · exact owns_of_update_file hm ho rfl rfl
  | find v p =>
    obtain ⟨ns, -, hfree, -, hfresh, rfl⟩ := happ
    refine ⟨hlisted, h.files, h.searches.issue hfree v ns,
      h.owned.take (o := .search p) hfresh rfl (fun m hm => ?_) fun o' m ho hm => ?_⟩
    · obtain ⟨ms, hms, hm⟩ := hm
      have hms : Function.update c.searches p (some ns) p = some ms := hms
      rw [Function.update_self, Option.some.injEq] at hms
      exact hms ▸ hm
    · exact owns_of_update_search hm ho rfl rfl
  | findClose v p =>
    obtain ⟨-, -, rfl⟩ := happ
    refine ⟨hlisted, h.files, h.searches.release p,
      h.owned.drop (o := .search p) (fun m _ => rfl) (fun m hm => ?_) fun o' m ho hm => ?_⟩
    · obtain ⟨ms, hms, -⟩ := hm
      have hms : Function.update c.searches p none p = some ms := hms
      rw [Function.update_self] at hms
      cases hms
    · exact owns_of_update_search hm ho rfl rfl

theorem represents_initial : Represents System.initial.ledger System.initial.daemon.core := by
  refine ⟨⟨rfl, List.nodup_nil, fun p => ⟨?_, nofun⟩, nofun⟩,
    ⟨fun p => ⟨?_, nofun⟩, List.nodup_nil⟩,
    ⟨fun p => ⟨?_, nofun⟩, List.nodup_nil⟩, ⟨?_, ?_⟩⟩
  · rintro ⟨node, hnode⟩
    cases hnode
  · rintro ⟨n, hn⟩
    cases hn
  · rintro ⟨ns, hns⟩
    cases hns
  · rintro (p | p) n hown
    · cases hown
    · obtain ⟨ns, hns, -⟩ := hown
      cases hns
  · rintro (p | p) o' n hown -
    · cases hown
    · obtain ⟨ns, hns, -⟩ := hown
      cases hns

/-- A request that is answered keeps the refinement. -/
theorem represents_next {sys sys' : System} {r : Incoming} {rc : ApiRet}
    (h : Represents sys.ledger sys.daemon.core) (hnext : sys.next r = (.ret rc, sys')) :
    Represents sys'.ledger sys'.daemon.core := by
  rcases next_replied hnext with ⟨e, -, happ, hledger⟩ | ⟨-, hledger, ns, -, hcore, -⟩
  · rw [hledger]
    exact h.applies happ
  · rw [hledger, hcore]
    exact h.withNodes ns

/-- The daemon refines the ledger in every run, whatever the requests. -/
theorem reachable_represents {may : System → Incoming → Prop} {sys : System}
    (h : Reachable may sys) : Represents sys.ledger sys.daemon.core := by
  refine Transition.invariant_of_step (Step may)
    (I := fun sys => Represents sys.ledger sys.daemon.core) ?_ h represents_initial
  rintro sys sys' hsys ⟨r, rc, -, hnext⟩
  exact represents_next hsys hnext

end Isofs.Daemon
