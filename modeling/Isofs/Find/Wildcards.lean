import Isofs.Find.Names
import Isofs.Library.Transition

/-!
# Wildcards

The rules by which a pattern matches a name, and how far `nameMatches` decides them. At the end of
the name `nameMatches` takes a `?` for the end of the pattern.
-/

namespace Isofs

open Transition

/-- One character of a pattern takes a part off the front of a name. -/
inductive PatternStep : UInt8 → List UInt8 → List UInt8 → Prop
  | literal {e c : UInt8} {name : List UInt8} (he : e ≠ 0x2a ∧ e ≠ 0x3f ∧ e ≠ 0x2e)
    (hc : tolower e = tolower c) : PatternStep e (c :: name) name
  | star {taken rest : List UInt8} : PatternStep 0x2a (taken ++ rest) rest
  | anyOne {c : UInt8} {name : List UInt8} (hc : c ≠ 0x2e) : PatternStep 0x3f (c :: name) name
  | anyAtDot {name : List UInt8} : PatternStep 0x3f (0x2e :: name) (0x2e :: name)
  | anyAtEnd : PatternStep 0x3f [] []
  | dot {name : List UInt8} : PatternStep 0x2e (0x2e :: name) name
  | dotAtEnd : PatternStep 0x2e [] []

/-- The whole pattern can be matched against the name, up to dots at its end. -/
def WildcardMatch (pszExp pszName : List UInt8) : Prop :=
  ∃ rest, Leads PatternStep pszExp pszName rest ∧ ∀ c ∈ rest, c = 0x2e

/-- The pattern has a `?` behind a part that takes the whole name. -/
def AnyBehindName (pszExp pszName : List UInt8) : Prop :=
  ∃ front rest, pszExp = front ++ 0x3f :: rest ∧ Leads PatternStep front pszName []

/-! ### The rules -/

theorem wildcardMatch_nil_iff {pszName : List UInt8} :
    WildcardMatch [] pszName ↔ ∀ c ∈ pszName, c = 0x2e := by
  constructor
  · rintro ⟨rest, hleads, hdots⟩
    rw [leads_nil_iff] at hleads
    exact hleads ▸ hdots
  · exact fun h => ⟨pszName, .nil _, h⟩

theorem wildcardMatch_cons_iff {e : UInt8} {exp pszName : List UInt8} :
    WildcardMatch (e :: exp) pszName ↔
      ∃ name, PatternStep e pszName name ∧ WildcardMatch exp name := by
  constructor
  · rintro ⟨rest, hleads, hdots⟩
    obtain ⟨name, hstep, hleads⟩ := leads_cons_iff.mp hleads
    exact ⟨name, hstep, rest, hleads, hdots⟩
  · rintro ⟨name, hstep, rest, hleads, hdots⟩
    exact ⟨rest, .cons hstep hleads, hdots⟩

theorem not_anyBehindName_nil (pszName : List UInt8) : ¬ AnyBehindName [] pszName := by
  rintro ⟨front, rest, h, -⟩
  simp at h

theorem anyBehindName_cons_iff {e : UInt8} {exp pszName : List UInt8} :
    AnyBehindName (e :: exp) pszName ↔
      (e = 0x3f ∧ pszName = []) ∨ ∃ name, PatternStep e pszName name ∧ AnyBehindName exp name := by
  constructor
  · rintro ⟨front, rest, h, hleads⟩
    cases front with
    | nil =>
      rw [leads_nil_iff] at hleads
      rw [List.nil_append, List.cons.injEq] at h
      exact Or.inl ⟨h.1, hleads⟩
    | cons d front =>
      rw [List.cons_append, List.cons.injEq] at h
      obtain ⟨name, hstep, hleads⟩ := leads_cons_iff.mp hleads
      exact Or.inr ⟨name, h.1 ▸ hstep, front, rest, h.2, hleads⟩
  · rintro (⟨rfl, rfl⟩ | ⟨name, hstep, front, rest, rfl, hleads⟩)
    · exact ⟨[], exp, rfl, .nil []⟩
    · exact ⟨e :: front, rest, rfl, .cons hstep hleads⟩

/-! ### The matcher -/

theorem patternStep_star_iff {pszName name : List UInt8} :
    PatternStep 0x2a pszName name ↔ name <:+ pszName := by
  constructor
  · intro h
    generalize he : (0x2a : UInt8) = e at h
    cases h with
    | literal hlit => exact absurd he.symm hlit.1
    | star => exact List.suffix_append _ _
    | anyOne => exact absurd he (by decide)
    | anyAtDot => exact absurd he (by decide)
    | anyAtEnd => exact absurd he (by decide)
    | dot => exact absurd he (by decide)
    | dotAtEnd => exact absurd he (by decide)
  · rintro ⟨taken, rfl⟩
    exact .star

theorem patternStep_any_iff {pszName name : List UInt8} :
    PatternStep 0x3f pszName name ↔
      (pszName = [] ∧ name = []) ∨
        ∃ c rest, pszName = c :: rest ∧ name = if c = 0x2e then c :: rest else rest := by
  constructor
  · intro h
    generalize he : (0x3f : UInt8) = e at h
    cases h with
    | literal hlit => exact absurd he.symm hlit.2.1
    | star => exact absurd he (by decide)
    | anyOne hc => exact Or.inr ⟨_, _, rfl, (if_neg hc).symm⟩
    | anyAtDot => exact Or.inr ⟨_, _, rfl, rfl⟩
    | anyAtEnd => exact Or.inl ⟨rfl, rfl⟩
    | dot => exact absurd he (by decide)
    | dotAtEnd => exact absurd he (by decide)
  · rintro (⟨rfl, rfl⟩ | ⟨c, rest, rfl, rfl⟩)
    · exact .anyAtEnd
    · split
      · next hc =>
        subst hc
        exact .anyAtDot
      · next hc => exact .anyOne hc

theorem patternStep_dot_iff {pszName name : List UInt8} :
    PatternStep 0x2e pszName name ↔ (pszName = [] ∧ name = []) ∨ pszName = 0x2e :: name := by
  constructor
  · intro h
    generalize he : (0x2e : UInt8) = e at h
    cases h with
    | literal hlit => exact absurd he.symm hlit.2.2
    | star => exact absurd he (by decide)
    | anyOne => exact absurd he (by decide)
    | anyAtDot => exact absurd he (by decide)
    | anyAtEnd => exact absurd he (by decide)
    | dot => exact Or.inr rfl
    | dotAtEnd => exact Or.inl ⟨rfl, rfl⟩
  · rintro (⟨rfl, rfl⟩ | rfl)
    · exact .dotAtEnd
    · exact .dot

theorem patternStep_literal_iff {e : UInt8} (he : e ≠ 0x2a ∧ e ≠ 0x3f ∧ e ≠ 0x2e)
    {pszName name : List UInt8} :
    PatternStep e pszName name ↔ ∃ c, pszName = c :: name ∧ tolower e = tolower c := by
  constructor
  · intro h
    cases h with
    | literal _ hc => exact ⟨_, rfl, hc⟩
    | star => exact absurd rfl he.1
    | anyOne => exact absurd rfl he.2.1
    | anyAtDot => exact absurd rfl he.2.1
    | anyAtEnd => exact absurd rfl he.2.1
    | dot => exact absurd rfl he.2.2
    | dotAtEnd => exact absurd rfl he.2.2
  · rintro ⟨c, rfl, hc⟩
    exact .literal he hc

/-- The case of a character that is none of the wildcards. -/
theorem nameMatches_literal {e : UInt8} (he : e ≠ 0x2a ∧ e ≠ 0x3f ∧ e ≠ 0x2e) (exp : List UInt8)
    (pszName : List UInt8) :
    nameMatches (e :: exp) pszName = match pszName with
      | [] => false
      | c :: name => tolower e = tolower c && nameMatches exp name := by
  rw [nameMatches.eq_def]
  split
  · next h => cases h
  · next h =>
    cases h
    exact absurd rfl he.1
  · next h =>
    cases h
    exact absurd rfl he.2.1
  · next h =>
    cases h
    exact absurd rfl he.2.2
  · next h =>
    cases h
    rfl

theorem starMatches_eq_true_iff {test : List UInt8 → Bool} {pszName : List UInt8} :
    starMatches test pszName = true ↔ ∃ name, name <:+ pszName ∧ test name = true := by
  induction pszName with
  | nil => simp [starMatches]
  | cons c pszName ih =>
    rw [starMatches, Bool.or_eq_true, ih]
    simp only [List.suffix_cons_iff, or_and_right, exists_or, exists_eq_left]
    exact or_comm

/-- The cases of `nameMatches`. -/
theorem nameMatches_cons_iff {e : UInt8} {exp pszName : List UInt8} :
    nameMatches (e :: exp) pszName = true ↔
      (e = 0x3f ∧ pszName = []) ∨
        ∃ name, PatternStep e pszName name ∧ nameMatches exp name = true := by
  by_cases hstar : e = 0x2a
  · subst hstar
    simp only [patternStep_star_iff]
    rw [or_iff_right (fun h => absurd h.1 (by decide)), ← starMatches_eq_true_iff]
    rfl
  -- a question mark also stands for nothing at the end of the name, or before a dot
  by_cases hany : e = 0x3f
  · subst hany
    simp only [patternStep_any_iff]
    cases pszName with
    | nil => exact iff_of_true rfl (Or.inl ⟨trivial, rfl⟩)
    | cons c rest =>
      show (if c = 0x2e then nameMatches exp (c :: rest) else nameMatches exp rest) = true ↔ _
      by_cases hc : c = 0x2e <;> simp [hc]
  by_cases hdot : e = 0x2e
  · subst hdot
    simp only [patternStep_dot_iff]
    cases pszName with
    | nil =>
      show nameMatches exp [] = true ↔ _
      simp
    | cons c rest =>
      show (c = 0x2e && nameMatches exp rest) = true ↔ _
      by_cases hc : c = 0x2e <;> simp [hc]
  · simp only [patternStep_literal_iff ⟨hstar, hany, hdot⟩]
    rw [nameMatches_literal ⟨hstar, hany, hdot⟩]
    cases pszName with
    | nil => simp [hany]
    | cons c rest => simp [hany]

/-- `nameMatches` finds the matches, and a name that ends before a `?`. -/
theorem nameMatches_eq_true_iff (pszExp pszName : List UInt8) :
    nameMatches pszExp pszName = true ↔
      WildcardMatch pszExp pszName ∨ AnyBehindName pszExp pszName := by
  induction pszExp generalizing pszName with
  | nil =>
    rw [wildcardMatch_nil_iff, or_iff_left (not_anyBehindName_nil pszName), nameMatches,
      List.isEmpty_iff, List.dropWhile_eq_nil_iff]
    simp only [decide_eq_true_eq]
  | cons e exp ih =>
    rw [nameMatches_cons_iff, wildcardMatch_cons_iff, anyBehindName_cons_iff, or_left_comm]
    refine or_congr_right ?_
    rw [← exists_or]
    refine exists_congr fun name => ?_
    rw [ih, and_or_left]

/-- `nameMatches` decides the rules exactly when the name matches or no `?` stands behind a part of
the pattern that takes the whole name. -/
theorem nameMatches_decides_iff (pszExp pszName : List UInt8) :
    (nameMatches pszExp pszName = true ↔ WildcardMatch pszExp pszName) ↔
      (AnyBehindName pszExp pszName → WildcardMatch pszExp pszName) := by
  rw [nameMatches_eq_true_iff]
  exact or_iff_left_iff_imp

/-- `a?b` takes the name `a`, which it does not match. -/
theorem nameMatches_any_at_end :
    nameMatches [0x61, 0x3f, 0x62] [0x61] = true ∧ ¬ WildcardMatch [0x61, 0x3f, 0x62] [0x61] := by
  refine ⟨by decide, fun h => ?_⟩
  obtain ⟨name, hstep, h⟩ := wildcardMatch_cons_iff.mp h
  obtain ⟨c, hname, -⟩ := (patternStep_literal_iff (by decide)).mp hstep
  obtain ⟨rfl, rfl⟩ := List.cons.inj hname
  obtain ⟨name, hstep, h⟩ := wildcardMatch_cons_iff.mp h
  obtain ⟨-, rfl⟩ | ⟨_, _, hcons, -⟩ := patternStep_any_iff.mp hstep
  · obtain ⟨name, hstep, -⟩ := wildcardMatch_cons_iff.mp h
    obtain ⟨c, hcons, -⟩ := (patternStep_literal_iff (by decide)).mp hstep
    cases hcons
  · cases hcons

end Isofs
