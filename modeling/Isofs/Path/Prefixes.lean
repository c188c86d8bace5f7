import Isofs.Path.Agreement

/-!
# Resolution by components

A path resolves as its list of components does, whatever separators are around them and in
whichever case they are. The walk along them is a fold: the components one by one are looked up in
what those before lead to.
-/

namespace Isofs

open Components

/-- `strnicmp(s, t, n) == 0` of two strings, both of length `n`. -/
def SameName (s t : List UInt8) : Prop := s.length = t.length ∧ s.map tolower = t.map tolower

/-- The paths have the same components up to case. -/
def SameComponents (path path' : List UInt8) : Prop :=
  List.Forall₂ SameName (components isPathSeparator path) (components isPathSeparator path')

/-- The path resolves to `e`, with the file at `pos` before and at `pos'` afterwards. -/
def Resolves (vol : VolData) (stack : Memory) (pos : ℕ) (path : List UInt8) (e : IsoDirEntry)
    (pos' : ℕ) : Prop :=
  ∃ w, isoQueryIsoEntryFromPath vol stack pos path = some w ∧ w.result = some e ∧ w.pos = pos'

/-- The first of the entries that has this name. -/
def IsFirstNamed (entries : List IsoDirEntry) (component : List UInt8) (e : IsoDirEntry) : Prop :=
  ∃ before after, entries = before ++ e :: after ∧ SameName e.chrName component ∧
    ∀ d ∈ before, ¬ SameName d.chrName component

theorem matchesComponent_iff_sameName {component : List UInt8} {pEntry : IsoDirEntry} :
    matchesComponent component pEntry = true ↔ SameName pEntry.chrName component := by
  rw [matchesComponent, equalNoCase, Bool.and_eq_true, decide_eq_true_eq, decide_eq_true_eq,
    SameName]

/-- The search of a component finds the first entry of that name. -/
theorem isFirstNamed_of_find? {entries : List IsoDirEntry} {component : List UInt8}
    {e : IsoDirEntry} (h : entries.find? (matchesComponent component) = some e) :
    IsFirstNamed entries component e := by
  obtain ⟨hname, before, after, hentries, hbefore⟩ := List.find?_eq_some_iff_append.mp h
  refine ⟨before, after, hentries, matchesComponent_iff_sameName.mp hname, fun d hd hsame => ?_⟩
  have hmatch := matchesComponent_iff_sameName.mpr hsame
  have hnot := hbefore d hd
  rw [hmatch] at hnot
  cases hnot

/-- Names that differ in case only match the same entries. -/
theorem matchesComponent_congr {component component' : List UInt8}
    (h : SameName component component') :
    matchesComponent component = matchesComponent component' := by
  funext pEntry
  obtain ⟨hlength, hcase⟩ := h
  rw [matchesComponent, matchesComponent, equalNoCase, equalNoCase, hlength, hcase]

section Walks

variable {vol : VolData} {stack : Memory}

/-- The walk does not look at the case of the components. -/
theorem entryWalk_congr {ps ps' : List (List UInt8)} (h : List.Forall₂ SameName ps ps') (pos : ℕ)
    (tempEntry : Option IsoDirEntry) :
    entryWalk vol stack pos tempEntry ps = entryWalk vol stack pos tempEntry ps' := by
  induction h generalizing pos tempEntry with
  | nil => rfl
  | cons hp _ ih =>
    rw [entryWalk, entryWalk, matchesComponent_congr hp]
    simp only [ih]

/-- A walk that finds an entry has found one for the first component. -/
theorem exists_of_entryWalk_cons {pos : ℕ} {tempEntry : Option IsoDirEntry} {p : List UInt8}
    {ps : List (List UInt8)} {w : Walk (Option IsoDirEntry)} {e : IsoDirEntry}
    (h : entryWalk vol stack pos tempEntry (p :: ps) = some w) (hresult : w.result = some e) :
    ∃ entries pos₁ e₁ w₁, getDirEntries vol stack pos (contentsOf vol tempEntry).1
        (contentsOf vol tempEntry).2 = some (entries, pos₁) ∧
      entries.find? (matchesComponent p) = some e₁ ∧
      entryWalk vol stack pos₁ (some e₁) ps = some w₁ ∧ w = w₁.after tempEntry := by
  rw [entryWalk] at h
  split at h
  · cases h
  · next entries pos₁ hlist =>
    split at h
    · cases h
      cases hresult
    · next e₁ hfind =>
      obtain ⟨w₁, hw₁, rfl⟩ := Option.map_eq_some_iff.mp h
      exact ⟨entries, pos₁, e₁, w₁, hlist, hfind, hw₁, rfl⟩

/-- The components at the front of a walk that finds an entry lead to an entry as well. -/
theorem entryWalk_front {ps qs : List (List UInt8)} {pos : ℕ} {tempEntry : Option IsoDirEntry}
    {w : Walk (Option IsoDirEntry)} {e : IsoDirEntry}
    (h : entryWalk vol stack pos tempEntry (ps ++ qs) = some w) (hresult : w.result = some e) :
    ∃ w' e', entryWalk vol stack pos tempEntry ps = some w' ∧ w'.result = some e' := by
  induction ps generalizing pos tempEntry w with
  | nil => exact ⟨_, _, entryWalk.eq_1 .., rfl⟩
  | cons p ps ih =>
    obtain ⟨entries, pos₁, e₁, w₁, hlist, hfind, hw₁, rfl⟩ := exists_of_entryWalk_cons h hresult
    obtain ⟨w', e', hw', hresult'⟩ := ih hw₁ hresult
    refine ⟨w'.after tempEntry, e', ?_, hresult'⟩
    rw [entryWalk_cons hlist, hfind]
    simp only [hw', Option.map_some]

/-- One more component is looked up in the contents of what the components before it lead to; none
lead to where the walk starts. -/
theorem entryWalk_next {component : List UInt8} {ps : List (List UInt8)} {pos : ℕ}
    {tempEntry : Option IsoDirEntry} {w w' : Walk (Option IsoDirEntry)} {e e' : IsoDirEntry}
    (h : entryWalk vol stack pos tempEntry ps = some w) (hresult : w.result = some e)
    (h' : entryWalk vol stack pos tempEntry (ps ++ [component]) = some w')
    (hresult' : w'.result = some e') :
    ∃ entries, getDirEntries vol stack w.pos
        (contentsOf vol (if ps = [] then tempEntry else some e)).1
        (contentsOf vol (if ps = [] then tempEntry else some e)).2 = some (entries, w'.pos) ∧
      entries.find? (matchesComponent component) = some e' := by
  induction ps generalizing pos tempEntry w w' with
  | nil =>
    rw [entryWalk] at h
    cases h
    obtain ⟨entries, pos₁, e₁, w₁, hlist, hfind, hw₁, rfl⟩ := exists_of_entryWalk_cons h' hresult'
    rw [entryWalk] at hw₁
    cases hw₁
    cases hresult'
    exact ⟨entries, hlist, hfind⟩
  | cons p ps ih =>
    obtain ⟨entries, pos₁, e₁, w₁, hlist, hfind, hw₁, rfl⟩ := exists_of_entryWalk_cons h hresult
    obtain ⟨entries', pos₁', e₁', w₁', hlist', hfind', hw₁', rfl⟩ :=
      exists_of_entryWalk_cons h' hresult'
    -- both walks make the same first step
    cases hlist.symm.trans hlist'
    cases hfind.symm.trans hfind'
    have hnext := ih hw₁ hresult hw₁' hresult'
    have hsource : (if ps = [] then some e₁ else some e) = some e := by
      split
      · next hps =>
        subst hps
        rw [entryWalk] at hw₁
        cases hw₁
        exact hresult
      · rfl
    rw [hsource] at hnext
    rw [if_neg (List.cons_ne_nil p ps)]
    exact hnext

end Walks

/-- What a path resolves to depends on its components up to case only. If it resolves, then so does
every path of its first components, and each component is looked up in the contents of what those
before it resolve to, or of the root. -/
theorem resolution_by_components (vol : VolData) (stack : Memory) (pos : ℕ) :
    (∀ path path', SameComponents path path' →
      isoQueryIsoEntryFromPath vol stack pos path = isoQueryIsoEntryFromPath vol stack pos path') ∧
    ∀ path e pos', Resolves vol stack pos path e pos' →
      (∀ k pre, components isPathSeparator pre = (components isPathSeparator path).take k →
        ∃ eₖ posₖ, Resolves vol stack pos pre eₖ posₖ) ∧
      ∀ k (hk : k < (components isPathSeparator path).length) pre next,
        components isPathSeparator pre = (components isPathSeparator path).take k →
        components isPathSeparator next = (components isPathSeparator path).take (k + 1) →
        ∀ eₖ posₖ e' pos', Resolves vol stack pos pre eₖ posₖ →
        Resolves vol stack pos next e' pos' →
        ∃ entries, getDirEntries vol stack posₖ
            (contentsOf vol (if k = 0 then none else some eₖ)).1
            (contentsOf vol (if k = 0 then none else some eₖ)).2 = some (entries, pos') ∧
          IsFirstNamed entries (components isPathSeparator path)[k] e' := by
  constructor
  · intro path path' h
    rw [isoQueryIsoEntryFromPath, isoQueryIsoEntryFromPath, entryLoop_eq_entryWalk,
      entryLoop_eq_entryWalk, entryWalk_congr h]
  rintro path e pos' ⟨w, hw, hresult, -⟩
  rw [isoQueryIsoEntryFromPath, entryLoop_eq_entryWalk] at hw
  constructor
  · intro k pre hpre
    -- the walk along the path goes through the walk along its first components
    rw [← List.take_append_drop k (components isPathSeparator path)] at hw
    obtain ⟨wₖ, eₖ, hwₖ, hresultₖ⟩ := entryWalk_front hw hresult
    refine ⟨eₖ, wₖ.pos, wₖ, ?_, hresultₖ, rfl⟩
    rw [isoQueryIsoEntryFromPath, entryLoop_eq_entryWalk, hpre, hwₖ]
  · rintro k hk pre next hpre hnext eₖ posₖ e' pos' ⟨wₖ, hwₖ, hresultₖ, rfl⟩
      ⟨w', hw', hresult', rfl⟩
    rw [isoQueryIsoEntryFromPath, entryLoop_eq_entryWalk, hpre] at hwₖ
    rw [isoQueryIsoEntryFromPath, entryLoop_eq_entryWalk, hnext,
      List.take_succ_eq_append_getElem hk] at hw'
    obtain ⟨entries, hlist, hfind⟩ := entryWalk_next hwₖ hresultₖ hw' hresult'
    have hnone : (components isPathSeparator path).take k = [] ↔ k = 0 := by
      rw [List.take_eq_nil_iff]
      refine or_iff_left fun hnil => ?_
      rw [hnil] at hk
      exact absurd hk (Nat.not_lt_zero k)
    simp only [hnone] at hlist
    exact ⟨entries, hlist, isFirstNamed_of_find? hfind⟩

end Isofs
