import Mathlib.Data.List.Forall2
import Mathlib.Tactic.Common

/-!
# File systems

A file system is a graph of nodes. A node is a file with its bytes, or a directory with its named
nodes in order; a directory may name itself and the one above it. A path component names the first
node of a directory that it fits, and a path the node at the end of its components.
-/

/-- What a node is. -/
inductive FileContent (ν κ β : Type*) where
  | file (bytes : List β)
  | dir (children : List (κ × ν))

/-- A file system of nodes `ν` with names `κ` and bytes `β`. -/
structure FileSystem (ν κ β : Type*) where
  root : ν
  content : ν → FileContent ν κ β

namespace FileContent

variable {ν κ β : Type*}

/-- The named nodes of a directory; a file has none. -/
def children : FileContent ν κ β → List (κ × ν)
  | file _ => []
  | dir children => children

def isDir : FileContent ν κ β → Bool
  | file _ => false
  | dir _ => true

end FileContent

namespace FileSystem

variable {ν κ β γ : Type*} (fs : FileSystem ν κ β) (fits : γ → κ → Bool)

/-- The node that a component names in the directory `n`. -/
def child (n : ν) (c : γ) : Option ν :=
  ((fs.content n).children.find? fun k => fits c k.1).map Prod.snd

/-- The node that the components lead to from `n`. -/
def lookup : ν → List γ → Option ν
  | n, [] => some n
  | n, c :: cs =>
    match child fs fits n c with
    | none => none
    | some m => lookup m cs

/-- No component follows one that leads to a file. -/
def ThroughDirs : ν → List γ → Prop
  | _, [] => True
  | n, c :: cs => ∀ m, child fs fits n c = some m →
    (cs ≠ [] → (fs.content m).isDir = true) ∧ ThroughDirs m cs

/-- The directory that the components lead to through directories. -/
def lookupDir : ν → List γ → Option ν
  | n, [] => some n
  | n, c :: cs =>
    match child fs fits n c with
    | none => none
    | some m => if (fs.content m).isDir then lookupDir m cs else none

variable {fs fits}

theorem lookup_cons_of_none {n : ν} {c : γ} (h : child fs fits n c = none) (cs : List γ) :
    lookup fs fits n (c :: cs) = none := by
  rw [lookup, h]

theorem lookup_cons_of_some {n m : ν} {c : γ} (h : child fs fits n c = some m) (cs : List γ) :
    lookup fs fits n (c :: cs) = lookup fs fits m cs := by
  rw [lookup, h]

/-- A file has no named nodes, so components that lead to a node follow no file. -/
theorem throughDirs_of_lookup {n m : ν} {cs : List γ} (h : lookup fs fits n cs = some m) :
    ThroughDirs fs fits n cs := by
  induction cs generalizing n with
  | nil => trivial
  | cons c cs ih =>
    intro k hchild
    rw [lookup_cons_of_some hchild] at h
    refine ⟨fun hne => ?_, ih h⟩
    obtain ⟨d, ds, rfl⟩ := List.exists_cons_of_ne_nil hne
    cases hcontent : fs.content k with
    | file bytes =>
      have hnone : child fs fits k d = none := by
        rw [child, hcontent]
        rfl
      rw [lookup_cons_of_none hnone] at h
      cases h
    | dir children => rfl

/-- From a directory, `lookupDir` finds what `lookup` finds through directories, if that is one. -/
theorem lookupDir_eq_some_iff {n m : ν} {cs : List γ} (hn : (fs.content n).isDir = true) :
    lookupDir fs fits n cs = some m ↔
      lookup fs fits n cs = some m ∧ ThroughDirs fs fits n cs ∧ (fs.content m).isDir = true := by
  induction cs generalizing n with
  | nil =>
    rw [lookupDir, lookup, ThroughDirs, Option.some.injEq, true_and]
    constructor
    · rintro rfl
      exact ⟨rfl, hn⟩
    · exact fun h => h.1
  | cons c cs ih =>
    rw [lookupDir, lookup, ThroughDirs]
    cases hchild : child fs fits n c with
    | none => simp only [reduceCtorEq, false_and]
    | some k =>
      simp only [Option.some.injEq, forall_eq']
      by_cases hk : (fs.content k).isDir = true
      · rw [if_pos hk, ih hk]
        exact and_congr_right fun _ => and_congr_left fun _ => (and_iff_right fun _ => hk).symm
      · -- a file ends the walk, unless it is what the components name
        rw [if_neg hk]
        refine iff_of_false (by simp) ?_
        rintro ⟨hlookup, ⟨hdir, -⟩, hm⟩
        cases cs with
        | nil =>
          rw [lookup, Option.some.injEq] at hlookup
          exact hk (hlookup ▸ hm)
        | cons d ds => exact hk (hdir (List.cons_ne_nil d ds))

end FileSystem

/-- A test that does not tell related elements apart finds related elements in related lists. -/
theorem List.Forall₂.find?_cases {α α' : Type*} {R : α → α' → Prop} {p : α → Bool}
    {p' : α' → Bool} {l : List α} {l' : List α'} (h : List.Forall₂ R l l')
    (hp : ∀ a a', R a a' → p a = p' a') :
    (l.find? p = none ∧ l'.find? p' = none) ∨
      ∃ a a', l.find? p = some a ∧ l'.find? p' = some a' ∧ R a a' := by
  induction h with
  | nil => exact Or.inl ⟨rfl, rfl⟩
  | @cons a a' l l' ha _ ih =>
    rw [List.find?_cons, List.find?_cons, ← hp a a' ha]
    cases p a with
    | true => exact Or.inr ⟨a, a', rfl, rfl, ha⟩
    | false => exact ih
