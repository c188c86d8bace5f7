import Isofs.Daemon.State
import Isofs.Path.Agreement

/-!
# Walks and their nodes

The two walks of `isoaccess.c` with the nodes that they allocate and release: they find what
the walks over values find, and leave no node but that of the entry found.
-/

namespace Isofs.Daemon

open Proc Components

/-- The loop of `isoQueryIsoEntryFromPath`. -/
def entryLoop (vol : VolData) (env : Env) (pos : ℕ) (tempEntry : Option IsoDirEntry)
    (pszPath : List UInt8) : Handler (Option (IsoDirEntry × Ptr) × ℕ) :=
  match _h : skipSeparators isPathSeparator pszPath with
  | [] => do
    let pEntry ← mallocEntry (tempEntry.getD (rootEntry vol))
    return (some pEntry, pos)
  | c :: cs => do
    let dir := contentsOf vol tempEntry
    let (entries, nodes, pos) ← getDirEntries vol env pos dir.1 dir.2
    match entries.find? (matchesComponent (piece isPathSeparator (c :: cs))) with
    | none => do
      isoFreeDirEntries nodes
      return (none, pos)
    | some pEntry => do
      isoFreeDirEntries nodes
      entryLoop vol env pos (some pEntry) (afterPiece isPathSeparator (c :: cs))
termination_by pszPath.length
decreasing_by exact length_afterPiece_lt isPathSeparator _h

/-- `isoQueryIsoEntryFromPath`: the entry and its node, and the file position. -/
def isoQueryIsoEntryFromPath (vol : VolData) (env : Env) (pszPath : List UInt8) :
    Handler (Option (IsoDirEntry × Ptr) × ℕ) :=
  entryLoop vol env env.pos none pszPath

/-- The loop of `isoQueryDirExtentFromPath`. -/
def dirExtentLoop (vol : VolData) (env : Env) (pos : ℕ) (iRootExtent iExtent iSize : ℤ)
    (pszPath : List UInt8) : Handler (Option (ℤ × ℤ)) :=
  match _h : skipSeparators isPathSeparator pszPath with
  | [] => return some (if iExtent = 0 then iRootExtent else iExtent, iSize)
  | c :: cs => do
    let dir := if iExtent = 0 then (iRootExtent, rootRecordSize vol) else (iExtent, iSize)
    let (entries, nodes, pos) ← getDirEntries vol env pos dir.1 dir.2
    match entries.find? (matchesComponent (piece isPathSeparator (c :: cs))) with
    | none => do
      isoFreeDirEntries nodes
      return none
    | some pEntry =>
      if pEntry.isDir then do
        isoFreeDirEntries nodes
        dirExtentLoop vol env pos iRootExtent pEntry.iExtent pEntry.iSize
          (afterPiece isPathSeparator (c :: cs))
      else do
        isoFreeDirEntries nodes
        return none
termination_by pszPath.length
decreasing_by exact length_afterPiece_lt isPathSeparator _h

/-- `isoQueryDirExtentFromPath` with a null `pSize`. -/
def isoQueryDirExtentFromPath (vol : VolData) (env : Env) (iRootExtent : ℤ)
    (pszPath : List UInt8) : Handler ℤ := do
  let found ← dirExtentLoop vol env env.pos iRootExtent 0 0 pszPath
  return (dirExtentResult false found).1

/-! ### What a walk leaves -/

/-- The state with other nodes. -/
def State.withNodes (s : State) (nodes : Heap Unit) : State := { s with isoDirEntries := nodes }

theorem freeEntry_of_live {p : Ptr} {s : State} (h : s.isoDirEntries.objects p = some ()) :
    freeEntry p s = (.ok (), s.withNodes (s.isoDirEntries.free p)) := by
  have haccess : access State.isoDirEntries p s = (.ok (), s) := by
    rw [access, h]
  rw [freeEntry, bind_of_ok haccess]
  rfl

/-- Nodes that are live are released. -/
theorem isoFreeDirEntries_of_live {ps : List Ptr} (hnodup : ps.Nodup) {s : State}
    (hlive : ∀ p ∈ ps, s.isoDirEntries.objects p = some ()) :
    isoFreeDirEntries ps s = (.ok (), s.withNodes (s.isoDirEntries.freeMany ps)) := by
  induction ps generalizing s with
  | nil => rfl
  | cons p ps ih =>
    obtain ⟨hp, hnodup⟩ := List.nodup_cons.mp hnodup
    rw [isoFreeDirEntries, bind_of_ok (freeEntry_of_live (hlive p List.mem_cons_self))]
    refine ih hnodup fun q hq => ?_
    show (s.isoDirEntries.free p).objects q = some ()
    have hne : q ≠ p := fun h => hp (h ▸ hq)
    rw [Heap.objects_free, Function.update_of_ne hne]
    exact hlive q (List.mem_cons_of_mem p hq)

/-- The nodes of a new listing can be released. -/
theorem isoFreeDirEntries_new (n : ℕ) (s : State) :
    ∃ h : Heap Unit, h.objects = s.isoDirEntries.objects ∧
      isoFreeDirEntries (List.range' s.isoDirEntries.next n)
        (s.withNodes (s.isoDirEntries.mallocMany n ())) = (.ok (), s.withNodes h) := by
  refine ⟨_, Heap.freeMany_mallocMany s.isoDirEntries n (), ?_⟩
  rw [isoFreeDirEntries_of_live (List.nodup_range' ..) fun p hp => ?_]
  · rfl
  · show (s.isoDirEntries.mallocMany n ()).objects p = some ()
    rw [Heap.objects_mallocMany, if_pos hp]

theorem getDirEntries_of_none {vol : VolData} {env : Env} {pos : ℕ} {extent len : ℤ}
    (h : Isofs.getDirEntries vol env.sectorStack pos extent len = none) (s : State) :
    getDirEntries vol env pos extent len s = (.error .exit, s) := by
  rw [getDirEntries, h]
  rfl

theorem getDirEntries_of_some {vol : VolData} {env : Env} {pos pos' : ℕ} {extent len : ℤ}
    {entries : List IsoDirEntry}
    (h : Isofs.getDirEntries vol env.sectorStack pos extent len = some (entries, pos'))
    (s : State) :
    getDirEntries vol env pos extent len s =
      (.ok (entries, List.range' s.isoDirEntries.next entries.length, pos'),
        s.withNodes (s.isoDirEntries.mallocMany entries.length ())) := by
  rw [getDirEntries, h]
  rfl

/-- A walk with its nodes ends as the walk over values does. It leaves the node of the entry that
it found, and no other that was not there before. -/
structure Found (s : State) (w : Walk (Option IsoDirEntry))
    (r : Except Outcome (Option (IsoDirEntry × Ptr) × ℕ) × State) : Prop where
  nothing : w.result = none → ∃ h : Heap Unit, h.objects = s.isoDirEntries.objects ∧
    r = (.ok (none, w.pos), s.withNodes h)
  entry : ∀ e, w.result = some e → ∃ (node : Ptr) (h : Heap Unit),
    s.isoDirEntries.objects node = none ∧
    h.objects = Function.update s.isoDirEntries.objects node (some ()) ∧
    r = (.ok (some (e, node), w.pos), s.withNodes h)

theorem Found.congr {s : State} {nodes : Heap Unit}
    (hnodes : nodes.objects = s.isoDirEntries.objects) {w w' : Walk (Option IsoDirEntry)}
    (hresult : w'.result = w.result) (hpos : w'.pos = w.pos)
    {r : Except Outcome (Option (IsoDirEntry × Ptr) × ℕ) × State}
    (h : Found (s.withNodes nodes) w r) : Found s w' r := by
  have hback : (s.withNodes nodes).isoDirEntries.objects = s.isoDirEntries.objects := hnodes
  refine ⟨fun hnone => ?_, fun e hsome => ?_⟩
  · obtain ⟨h', hobj, hr⟩ := h.nothing (hresult ▸ hnone)
    exact ⟨h', hobj.trans hback, hpos ▸ hr⟩
  · obtain ⟨node, h', hfree, hobj, hr⟩ := h.entry e (hresult ▸ hsome)
    rw [hback] at hfree hobj
    exact ⟨node, h', hfree, hobj, hpos ▸ hr⟩

/-- The walk over values says how a walk with its nodes ends. -/
def EndsAs (s : State) (w : Option (Walk (Option IsoDirEntry)))
    (r : Except Outcome (Option (IsoDirEntry × Ptr) × ℕ) × State) : Prop :=
  (w = none → r.1 = .error .exit) ∧ ∀ w', w = some w' → Found s w' r

theorem entryLoop_endsAs (vol : VolData) (env : Env) (pos : ℕ) (tempEntry : Option IsoDirEntry)
    (path : List UInt8) (s : State) :
    EndsAs s (entryWalk vol env.sectorStack pos tempEntry (components isPathSeparator path))
      (entryLoop vol env pos tempEntry path s) := by
  induction path using components.induct isPathSeparator generalizing pos tempEntry s with
  | case1 path hnil =>
    -- at the end of the path the entry is copied to a node of its own
    have hloop : entryLoop vol env pos tempEntry path =
        mallocEntry (tempEntry.getD (rootEntry vol)) >>= fun pEntry => pure (some pEntry, pos) := by
      rw [entryLoop]
      split
      · rfl
      · next h => rw [hnil] at h; cases h
    rw [components_of_nil _ hnil, hloop]
    refine ⟨fun hwalk => ?_, fun w hwalk => ?_⟩
    · cases hwalk
    cases hwalk
    refine ⟨fun hnone => ?_, fun e he => ?_⟩
    · cases hnone
    cases he
    refine ⟨s.isoDirEntries.next, s.isoDirEntries.mallocMany 1 (), s.isoDirEntries.objects_next,
      ?_, rfl⟩
    funext p
    rw [Heap.objects_mallocMany]
    by_cases hp : p = s.isoDirEntries.next
    · rw [hp, Function.update_self, if_pos (by simp)]
    · rw [Function.update_of_ne hp, if_neg (by simpa using hp)]
  | case2 path c cs hcons ih =>
    rw [components_of_cons _ hcons, entryWalk]
    -- a turn of the loop lists a directory and frees the list on both of its exits
    have hloop : entryLoop vol env pos tempEntry path =
        getDirEntries vol env pos (contentsOf vol tempEntry).1 (contentsOf vol tempEntry).2 >>=
          fun r => (r.1.find? (matchesComponent (piece isPathSeparator (c :: cs)))).elim
            (isoFreeDirEntries r.2.1 >>= fun _ => pure (none, r.2.2))
            fun pEntry => isoFreeDirEntries r.2.1 >>= fun _ =>
              entryLoop vol env r.2.2 (some pEntry) (afterPiece isPathSeparator (c :: cs)) := by
      rw [entryLoop]
      split
      · next h => rw [hcons] at h; cases h
      · next c' cs' h =>
        rw [hcons, List.cons.injEq] at h
        obtain ⟨rfl, rfl⟩ := h
        refine congrArg (bind _) (funext fun r => ?_)
        dsimp only
        cases r.1.find? (matchesComponent (piece isPathSeparator (c :: cs))) with
        | none => rfl
        | some pEntry => rfl
    rw [hloop]
    cases hlist : Isofs.getDirEntries vol env.sectorStack pos (contentsOf vol tempEntry).1
        (contentsOf vol tempEntry).2 with
    | none =>
      rw [bind_of_error (getDirEntries_of_none hlist s)]
      refine ⟨fun _ => rfl, fun w hwalk => ?_⟩
      cases hwalk
    | some r =>
      obtain ⟨entries, pos'⟩ := r
      obtain ⟨h, hobj, hfree⟩ := isoFreeDirEntries_new entries.length s
      rw [bind_of_ok (getDirEntries_of_some hlist s)]
      dsimp only
      cases entries.find? (matchesComponent (piece isPathSeparator (c :: cs))) with
      | none =>
        rw [Option.elim_none, bind_of_ok hfree]
        refine ⟨fun hwalk => ?_, fun w hwalk => ?_⟩
        · cases hwalk
        · cases hwalk
          refine ⟨fun _ => ⟨h, hobj, rfl⟩, fun e he => ?_⟩
          cases he
      | some pEntry =>
        rw [Option.elim_some, bind_of_ok hfree]
        obtain ⟨hnone, hsome⟩ := ih pos' (some pEntry) (s.withNodes h)
        refine ⟨fun hwalk => hnone (Option.map_eq_none_iff.mp hwalk), fun w hwalk => ?_⟩
        obtain ⟨w', hw', rfl⟩ := Option.map_eq_some_iff.mp hwalk
        exact @Found.congr s h hobj w' (w'.after tempEntry) rfl rfl _ (hsome w' hw')

theorem isoQueryIsoEntryFromPath_endsAs (vol : VolData) (env : Env) (path : List UInt8)
    (s : State) :
    EndsAs s (Isofs.isoQueryIsoEntryFromPath vol env.sectorStack env.pos path)
      (isoQueryIsoEntryFromPath vol env path s) := by
  rw [Isofs.isoQueryIsoEntryFromPath, entryLoop_eq_entryWalk]
  exact entryLoop_endsAs vol env env.pos none path s

theorem entryWalk_isSome {vol : VolData} (hucs : vol.ucsLevel ≤ 3) (stack : Memory) (pos : ℕ)
    (tempEntry : Option IsoDirEntry) (names : List (List UInt8)) :
    (entryWalk vol stack pos tempEntry names).isSome := by
  induction names generalizing pos tempEntry with
  | nil => rfl
  | cons name rest ih =>
    rw [entryWalk]
    obtain ⟨entries, pos', hlist⟩ := getDirEntries_isSome hucs stack pos
      (contentsOf vol tempEntry).1 (contentsOf vol tempEntry).2
    rw [hlist]
    dsimp only
    cases entries.find? (matchesComponent name) with
    | none => rfl
    | some e =>
      dsimp only
      rw [Option.isSome_map]
      exact ih pos' (some e)

/-! ### Rules -/

section Rules

variable {vol : VolData} {env : Env} {s : State} {R : Outcome → State → Prop}

theorem getDirEntries_ends {pos : ℕ} {extent len : ℤ}
    {Q : List IsoDirEntry × List Ptr × ℕ → State → Prop}
    (hexit : 3 < vol.ucsLevel → R .exit s)
    (hlisted : ∀ entries pos',
      Isofs.getDirEntries vol env.sectorStack pos extent len = some (entries, pos') →
      Q (entries, List.range' s.isoDirEntries.next entries.length, pos')
        (s.withNodes (s.isoDirEntries.mallocMany entries.length ()))) :
    Ends (getDirEntries vol env pos extent len) Q R s := by
  cases hlist : Isofs.getDirEntries vol env.sectorStack pos extent len with
  | none =>
    refine Ends.of_error (getDirEntries_of_none hlist s) (hexit ?_)
    by_contra hucs
    obtain ⟨_, _, h⟩ :=
      getDirEntries_isSome (Nat.not_lt.mp hucs) env.sectorStack pos extent len
    rw [hlist] at h
    cases h
  | some r => exact Ends.of_ok (getDirEntries_of_some hlist s) (hlisted _ _ hlist)

/-- What `isoQueryIsoEntryFromPath` ends with. -/
theorem isoQueryIsoEntryFromPath_ends {path : List UInt8}
    {Q : Option (IsoDirEntry × Ptr) × ℕ → State → Prop}
    (hexit : 3 < vol.ucsLevel → ∀ s', R .exit s')
    (hnothing : ∀ w (nodes : Heap Unit),
      Isofs.isoQueryIsoEntryFromPath vol env.sectorStack env.pos path = some w → w.result = none →
      nodes.objects = s.isoDirEntries.objects → Q (none, w.pos) (s.withNodes nodes))
    (hentry : ∀ w e node (nodes : Heap Unit),
      Isofs.isoQueryIsoEntryFromPath vol env.sectorStack env.pos path = some w →
      w.result = some e → s.isoDirEntries.objects node = none →
      nodes.objects = Function.update s.isoDirEntries.objects node (some ()) →
      Q (some (e, node), w.pos) (s.withNodes nodes)) :
    Ends (isoQueryIsoEntryFromPath vol env path) Q R s := by
  obtain ⟨hnone, hsome⟩ := isoQueryIsoEntryFromPath_endsAs vol env path s
  cases hwalk : Isofs.isoQueryIsoEntryFromPath vol env.sectorStack env.pos path with
  | none =>
    refine Ends.of_error (Prod.ext (hnone hwalk) rfl) (hexit ?_ _)
    by_contra hucs
    have h := entryWalk_isSome (Nat.not_lt.mp hucs) env.sectorStack env.pos none
      (components isPathSeparator path)
    rw [← entryLoop_eq_entryWalk] at h
    rw [Isofs.isoQueryIsoEntryFromPath] at hwalk
    rw [hwalk] at h
    cases h
  | some w =>
    have hfound := hsome w hwalk
    cases hresult : w.result with
    | none =>
      obtain ⟨nodes, hnodes, hr⟩ := hfound.nothing hresult
      exact Ends.of_ok hr (hnothing w nodes hwalk hresult hnodes)
    | some e =>
      obtain ⟨node, nodes, hfree, hnodes, hr⟩ := hfound.entry e hresult
      exact Ends.of_ok hr (hentry w e node nodes hwalk hresult hfree hnodes)

/-- The loop of `isoQueryDirExtentFromPath` finds what the loop over values finds, and leaves no
node that was not there before. -/
theorem dirExtentLoop_ends (hexit : 3 < vol.ucsLevel → ∀ s', R .exit s') (pos : ℕ)
    (iRootExtent : ℤ) (found : Option IsoDirEntry) (iExtent iSize : ℤ) (path : List UInt8) :
    Ends (dirExtentLoop vol env pos iRootExtent iExtent iSize path)
      (fun r s' => (∃ w, dirExtentWalk vol env.sectorStack iRootExtent pos found iExtent iSize
          (components isPathSeparator path) = some w ∧ w.result = r) ∧
        ∃ nodes : Heap Unit, nodes.objects = s.isoDirEntries.objects ∧ s' = s.withNodes nodes)
      R s := by
  induction path using components.induct isPathSeparator generalizing pos found iExtent iSize s with
  | case1 path hnil =>
    have hloop : dirExtentLoop vol env pos iRootExtent iExtent iSize path =
        pure (some (if iExtent = 0 then iRootExtent else iExtent, iSize)) := by
      rw [dirExtentLoop]
      split
      · rfl
      · next h => rw [hnil] at h; cases h
    rw [components_of_nil _ hnil, hloop]
    exact Ends.pure ⟨⟨_, rfl, rfl⟩, s.isoDirEntries, rfl, rfl⟩
  | case2 path c cs hcons ih =>
    have hloop : dirExtentLoop vol env pos iRootExtent iExtent iSize path =
        getDirEntries vol env pos
            (if iExtent = 0 then (iRootExtent, rootRecordSize vol) else (iExtent, iSize)).1
            (if iExtent = 0 then (iRootExtent, rootRecordSize vol) else (iExtent, iSize)).2 >>=
          fun r => match r.1.find? (matchesComponent (piece isPathSeparator (c :: cs))) with
          | none => isoFreeDirEntries r.2.1 >>= fun _ => pure none
          | some pEntry =>
            if pEntry.isDir then isoFreeDirEntries r.2.1 >>= fun _ =>
              dirExtentLoop vol env r.2.2 iRootExtent pEntry.iExtent pEntry.iSize
                (afterPiece isPathSeparator (c :: cs))
            else isoFreeDirEntries r.2.1 >>= fun _ => pure none := by
      rw [dirExtentLoop]
      split
      · next h => rw [hcons] at h; cases h
      · next c' cs' h =>
        rw [hcons, List.cons.injEq] at h
        obtain ⟨rfl, rfl⟩ := h
        rfl
    rw [components_of_cons _ hcons, hloop, dirExtentWalk]
    -- the root directory stands in for an extent of zero
    have hturn : (if iExtent = 0 then (iRootExtent, rootRecordSize vol, none)
        else (iExtent, iSize, found)) =
        ((if iExtent = 0 then (iRootExtent, rootRecordSize vol) else (iExtent, iSize)).1,
          (if iExtent = 0 then (iRootExtent, rootRecordSize vol) else (iExtent, iSize)).2,
          if iExtent = 0 then none else found) := by
      split <;> rfl
    rw [hturn]
    generalize (if iExtent = 0 then (iRootExtent, rootRecordSize vol) else (iExtent, iSize)) = dir
    dsimp only
    refine Ends.bind (getDirEntries_ends (fun h => hexit h s) fun entries pos' hlist => ?_)
    obtain ⟨nodes, hnodes, hfree⟩ := isoFreeDirEntries_new entries.length s
    rw [hlist]
    dsimp only
    cases entries.find? (matchesComponent (piece isPathSeparator (c :: cs))) with
    | none => exact Ends.bind (Ends.of_ok hfree (Ends.pure ⟨⟨_, rfl, rfl⟩, nodes, hnodes, rfl⟩))
    | some pEntry =>
      dsimp only
      cases pEntry.isDir with
      | false => exact Ends.bind (Ends.of_ok hfree (Ends.pure ⟨⟨_, rfl, rfl⟩, nodes, hnodes, rfl⟩))
      | true =>
        refine Ends.bind (Ends.of_ok hfree ?_)
        refine (ih pos' (some pEntry) pEntry.iExtent pEntry.iSize).mono ?_ fun _ _ h => h
        rintro r s' ⟨⟨w, hw, hr⟩, nodes', hnodes', hs'⟩
        refine ⟨⟨_, congrArg (Option.map _) hw, hr⟩, nodes', ?_, hs'⟩
        rw [hnodes']
        exact hnodes

end Rules

end Isofs.Daemon
