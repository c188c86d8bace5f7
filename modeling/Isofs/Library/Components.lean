import Mathlib.Data.List.TakeWhile
import Mathlib.Tactic.Common

/-!
# Separated components

The maximal pieces of a list that hold no separator: how a path string is cut into
its components. Separators may stand before, behind and several times between them.
-/

namespace Components

variable {α : Type*} (sep : α → Bool)

/-- What follows the leading separators. -/
def skipSeparators (l : List α) : List α := l.dropWhile sep

/-- The piece up to the next separator or the end. -/
def piece (l : List α) : List α := l.takeWhile fun c => !sep c

/-- What follows that piece. -/
def afterPiece (l : List α) : List α := l.dropWhile fun c => !sep c

/-- A component starts behind the separators. -/
theorem sep_of_skipSeparators {l : List α} {c : α} {cs : List α}
    (h : skipSeparators sep l = c :: cs) : sep c = false := by
  have := List.head?_dropWhile_not sep l
  rw [skipSeparators] at h
  simpa [h] using this

/-- The part behind the first component is shorter than the list. -/
theorem length_afterPiece_lt {l : List α} {c : α} {cs : List α}
    (h : skipSeparators sep l = c :: cs) : (afterPiece sep (c :: cs)).length < l.length := by
  have hc := sep_of_skipSeparators sep h
  have hskip : (c :: cs).length ≤ l.length := by
    rw [← h]
    exact (List.dropWhile_sublist sep).length_le
  have hdrop : afterPiece sep (c :: cs) = cs.dropWhile fun c => !sep c := by
    simp [afterPiece, hc]
  have hcs : (cs.dropWhile fun c => !sep c).length ≤ cs.length :=
    (List.dropWhile_sublist _).length_le
  rw [hdrop]
  simp only [List.length_cons] at hskip
  omega

/-- The components of a list, in order. -/
def components (l : List α) : List (List α) :=
  match _h : skipSeparators sep l with
  | [] => []
  | c :: cs => piece sep (c :: cs) :: components (afterPiece sep (c :: cs))
termination_by l.length
decreasing_by exact length_afterPiece_lt sep _h

theorem components_of_nil {l : List α} (h : skipSeparators sep l = []) :
    components sep l = [] := by
  rw [components]
  split
  · rfl
  · next h' => rw [h] at h'; cases h'

theorem components_of_cons {l : List α} {c : α} {cs : List α}
    (h : skipSeparators sep l = c :: cs) :
    components sep l = piece sep (c :: cs) :: components sep (afterPiece sep (c :: cs)) := by
  rw [components]
  split
  · next h' => rw [h] at h'; cases h'
  · next c' cs' h' =>
    rw [h, List.cons.injEq] at h'
    obtain ⟨rfl, rfl⟩ := h'
    rfl

@[simp] theorem components_nil : components sep ([] : List α) = [] :=
  components_of_nil sep rfl

/-- A component is not empty and holds no separator. -/
def IsComponent (p : List α) : Prop := p ≠ [] ∧ ∀ c ∈ p, sep c = false

theorem isComponent_piece {l : List α} {c : α} {cs : List α}
    (h : skipSeparators sep l = c :: cs) : IsComponent sep (piece sep (c :: cs)) := by
  have hc := sep_of_skipSeparators sep h
  refine ⟨by simp [piece, hc], fun d hd => ?_⟩
  simpa using List.mem_takeWhile_imp hd

theorem isComponent_of_mem {l p : List α} (h : p ∈ components sep l) : IsComponent sep p := by
  induction l using components.induct sep with
  | case1 l hnil =>
    rw [components_of_nil sep hnil] at h
    cases h
  | case2 l c cs hcons ih =>
    rw [components_of_cons sep hcons, List.mem_cons] at h
    rcases h with rfl | h
    · exact isComponent_piece sep hcons
    · exact ih h

/-- Only what follows the leading separators has components. -/
theorem components_congr {l l' : List α} (h : skipSeparators sep l = skipSeparators sep l') :
    components sep l = components sep l' := by
  cases hl : skipSeparators sep l with
  | nil => rw [components_of_nil sep hl, components_of_nil sep (h ▸ hl)]
  | cons c cs => exact (components_of_cons sep hl).trans (components_of_cons sep (h ▸ hl)).symm

theorem components_sep_cons {s : α} (hs : sep s = true) (l : List α) :
    components sep (s :: l) = components sep l :=
  components_congr sep (List.dropWhile_cons_of_pos hs)

theorem components_seps_append {seps : List α} (hseps : ∀ s ∈ seps, sep s = true) (l : List α) :
    components sep (seps ++ l) = components sep l := by
  induction seps with
  | nil => rfl
  | cons s seps ih =>
    rw [List.forall_mem_cons] at hseps
    rw [List.cons_append, components_sep_cons sep hseps.1, ih hseps.2]

/-- A separator cuts a list in two. -/
theorem components_append_sep {s : α} (hs : sep s = true) (x y : List α) :
    components sep (x ++ s :: y) = components sep x ++ components sep y := by
  induction x using components.induct sep with
  | case1 x hnil =>
    have hx : ∀ c ∈ x, sep c = true := List.dropWhile_eq_nil_iff.mp hnil
    rw [components_of_nil sep hnil, components_seps_append sep hx, components_sep_cons sep hs,
      List.nil_append]
  | case2 x c cs hcons ih =>
    -- the first component of `x` is also the first one of the whole list
    have hskip : skipSeparators sep (x ++ s :: y) = c :: (cs ++ s :: y) := by
      rw [skipSeparators] at hcons ⊢
      rw [List.dropWhile_append, hcons]
      rfl
    have hafter : afterPiece sep (c :: (cs ++ s :: y)) = afterPiece sep (c :: cs) ++ s :: y := by
      rw [← List.cons_append, afterPiece, afterPiece, List.dropWhile_append]
      split
      · next h =>
        rw [List.isEmpty_iff.mp h, List.dropWhile_cons_of_neg (by simp [hs]), List.nil_append]
      · rfl
    have hpiece : piece sep (c :: (cs ++ s :: y)) = piece sep (c :: cs) := by
      rw [← List.cons_append, piece, piece, List.takeWhile_append]
      split
      · next h =>
        rw [List.takeWhile_cons_of_neg (by simp [hs]), List.append_nil]
        exact ((List.takeWhile_prefix _).eq_of_length h).symm
      · rfl
    rw [components_of_cons sep hskip, components_of_cons sep hcons, hpiece, hafter, ih,
      List.cons_append]

/-- A list without separators is one component, unless it is empty. -/
theorem components_of_free {l : List α} (h : ∀ c ∈ l, sep c = false) (hne : l ≠ []) :
    components sep l = [l] := by
  cases l with
  | nil => exact absurd rfl hne
  | cons c cs =>
    have hfree : ∀ d ∈ c :: cs, (!sep d) = true := fun d hd => by simp [h d hd]
    have hskip : skipSeparators sep (c :: cs) = c :: cs :=
      List.dropWhile_cons_of_neg (by simp [h c List.mem_cons_self])
    rw [components_of_cons sep hskip, piece, List.takeWhile_eq_self_iff.mpr hfree, afterPiece,
      List.dropWhile_eq_nil_iff.mpr hfree, components_nil]

/-- The components put behind one separator each. -/
def join (s : α) (ps : List (List α)) : List α := ps.flatMap (s :: ·)

/-- Joining components and cutting the result gives them back. -/
theorem components_join {s : α} (hs : sep s = true) {ps : List (List α)}
    (h : ∀ p ∈ ps, IsComponent sep p) : components sep (join s ps) = ps := by
  induction ps with
  | nil => exact components_nil sep
  | cons p ps ih =>
    rw [List.forall_mem_cons] at h
    obtain ⟨⟨hne, hfree⟩, hps⟩ := h
    cases p with
    | nil => exact absurd rfl hne
    | cons c cs =>
      have hc : sep c = false := hfree c List.mem_cons_self
      have hcs : ∀ d ∈ cs, (!sep d) = true := fun d hd => by simp [hfree d (by simp [hd])]
      have hskip : skipSeparators sep (join s ((c :: cs) :: ps)) = c :: (cs ++ join s ps) := by
        simp [skipSeparators, join, hs, hc]
      -- what follows the first component is empty or starts with a separator
      have hnext : (join s ps).takeWhile (fun d => !sep d) = [] ∧
          (join s ps).dropWhile (fun d => !sep d) = join s ps := by
        cases ps <;> simp [join, hs]
      rw [components_of_cons sep hskip]
      congr 1
      · simp [piece, hc, List.takeWhile_append_of_pos hcs, hnext.1]
      · rw [afterPiece, List.dropWhile_cons_of_pos (by simp [hc]),
          List.dropWhile_append_of_pos hcs, hnext.2, ih hps]

/-- Every prefix of a component list is the component list of some list. -/
theorem exists_components_eq {s : α} (hs : sep s = true) {l : List α} {ps : List (List α)}
    (h : ps <+: components sep l) : ∃ q, components sep q = ps :=
  ⟨join s ps, components_join sep hs fun _ hp => isComponent_of_mem sep (h.subset hp)⟩

end Components
