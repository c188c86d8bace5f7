import Isofs.Find.Names

/-!
# 8.3 names

What `hasNon83Name` takes for a name that DOS programs can use. Its loop counts the characters of
the base and, from the first dot on, those of the extension, but nothing makes it ask for a base.
-/

namespace Isofs

/-- A part of an 8.3 name: at most `max` characters, each of them allowed. -/
def IsNamePart (max : ℕ) (part : List UInt8) : Prop :=
  part.length ≤ max ∧ ∀ c ∈ part, c ∉ DOSBADCHARS

/-- A name that DOS programs can use. -/
inductive IsDosName : List UInt8 → Prop where
  | dot : IsDosName [0x2e]
  | dotDot : IsDosName [0x2e, 0x2e]
  | base {base : List UInt8} (hne : base ≠ []) (hbase : IsNamePart 8 base) : IsDosName base
  | withExtension {base ext : List UInt8} (hne : base ≠ []) (hbase : IsNamePart 8 base)
      (hext : IsNamePart 3 ext) : IsDosName (base ++ 0x2e :: ext)

/-- A name without a base that is otherwise one that DOS programs can use. -/
def LacksBase (psz : List UInt8) : Prop :=
  psz = [] ∨ ∃ ext, psz = 0x2e :: ext ∧ ext ≠ [] ∧ IsNamePart 3 ext

theorem isNamePart_nil (max : ℕ) : IsNamePart max [] := ⟨Nat.zero_le max, List.forall_mem_nil _⟩

theorem isNamePart_cons_iff {max : ℕ} {c : UInt8} {part : List UInt8} :
    IsNamePart max (c :: part) ↔ c ∉ DOSBADCHARS ∧ 1 ≤ max ∧ IsNamePart (max - 1) part := by
  rw [IsNamePart, IsNamePart, List.length_cons, List.forall_mem_cons]
  constructor
  · rintro ⟨hlen, hc, hpart⟩
    exact ⟨hc, by omega, by omega, hpart⟩
  · rintro ⟨hc, hmax, hlen, hpart⟩
    exact ⟨by omega, hc, hpart⟩

theorem dot_mem_DOSBADCHARS : 0x2e ∈ DOSBADCHARS := by decide

theorem IsNamePart.dot_notMem {max : ℕ} {part : List UInt8} (h : IsNamePart max part) :
    0x2e ∉ part := fun hdot => h.2 _ hdot dot_mem_DOSBADCHARS

/-! ### The loop -/

/-- Behind the dot the loop accepts what is left of an extension. -/
theorem non83Loop_ext_iff {i : ℕ} (hi : i ≤ 3) (psz : List UInt8) :
    non83Loop true i psz = false ↔ IsNamePart (3 - i) psz := by
  induction psz generalizing i with
  | nil => exact iff_of_true rfl (isNamePart_nil _)
  | cons c psz ih =>
    rw [non83Loop, if_pos rfl, isNamePart_cons_iff]
    simp only [Bool.or_eq_false_iff, decide_eq_false_iff_not, Nat.not_lt, and_assoc]
    constructor
    · rintro ⟨-, hlen, hc, hrest⟩
      exact ⟨hc, by omega, (ih hlen).mp hrest⟩
    · rintro ⟨hc, hlen, hrest⟩
      have hdot : c ≠ 0x2e := fun h => hc (h ▸ dot_mem_DOSBADCHARS)
      exact ⟨hdot, by omega, hc, (ih (by omega)).mpr hrest⟩

/-- What the loop accepts before a dot: the rest of a base, or one with an extension. -/
def IsNameRest (max : ℕ) (psz : List UInt8) : Prop :=
  IsNamePart max psz ∨
    ∃ base ext, psz = base ++ 0x2e :: ext ∧ IsNamePart max base ∧ IsNamePart 3 ext

theorem isNameRest_dot_iff {max : ℕ} {ext : List UInt8} :
    IsNameRest max (0x2e :: ext) ↔ IsNamePart 3 ext := by
  constructor
  · rintro (hpart | ⟨base, ext', heq, hbase, hext⟩)
    · exact absurd List.mem_cons_self hpart.dot_notMem
    · cases base with
      | nil =>
        cases heq
        exact hext
      | cons c base =>
        obtain rfl := (List.cons.inj heq).1
        exact absurd List.mem_cons_self hbase.dot_notMem
  · intro hext
    exact Or.inr ⟨[], ext, rfl, isNamePart_nil max, hext⟩

theorem isNameRest_cons_iff {max : ℕ} {c : UInt8} (hc : c ≠ 0x2e) {psz : List UInt8} :
    IsNameRest max (c :: psz) ↔ c ∉ DOSBADCHARS ∧ 1 ≤ max ∧ IsNameRest (max - 1) psz := by
  constructor
  · rintro (hpart | ⟨base, ext, heq, hbase, hext⟩)
    · obtain ⟨hbad, hmax, hpart⟩ := isNamePart_cons_iff.mp hpart
      exact ⟨hbad, hmax, Or.inl hpart⟩
    · cases base with
      | nil => exact absurd (List.cons.inj heq).1 hc
      | cons d base =>
        obtain ⟨rfl, rfl⟩ := List.cons.inj heq
        obtain ⟨hbad, hmax, hbase⟩ := isNamePart_cons_iff.mp hbase
        exact ⟨hbad, hmax, Or.inr ⟨base, ext, rfl, hbase, hext⟩⟩
  · rintro ⟨hbad, hmax, hpart | ⟨base, ext, rfl, hbase, hext⟩⟩
    · exact Or.inl (isNamePart_cons_iff.mpr ⟨hbad, hmax, hpart⟩)
    · exact Or.inr ⟨c :: base, ext, rfl, isNamePart_cons_iff.mpr ⟨hbad, hmax, hbase⟩, hext⟩

theorem non83Loop_base_iff {i : ℕ} (hi : i ≤ 8) (psz : List UInt8) :
    non83Loop false i psz = false ↔ IsNameRest (8 - i) psz := by
  induction psz generalizing i with
  | nil => exact iff_of_true rfl (Or.inl (isNamePart_nil _))
  | cons c psz ih =>
    rw [non83Loop, if_neg Bool.false_ne_true]
    by_cases hc : c = 0x2e
    · subst hc
      rw [if_pos rfl, isNameRest_dot_iff]
      exact non83Loop_ext_iff (Nat.zero_le 3) psz
    · rw [if_neg hc, isNameRest_cons_iff hc]
      simp only [Bool.or_eq_false_iff, decide_eq_false_iff_not, Nat.not_lt, and_assoc]
      constructor
      · rintro ⟨hlen, hbad, hrest⟩
        exact ⟨hbad, by omega, (ih hlen).mp hrest⟩
      · rintro ⟨hbad, hlen, hrest⟩
        exact ⟨by omega, hbad, (ih (by omega)).mpr hrest⟩

/-! ### The names -/

/-- A name with a base is no name without one. -/
theorem IsDosName.not_lacksBase {psz : List UInt8} (h : IsDosName psz) : ¬ LacksBase psz := by
  -- a dot at the start is not part of a base
  have hstart {c : UInt8} {cs base ext : List UInt8} (hbase : IsNamePart 8 base)
      (hpsz : base ++ ext = c :: cs) (hne : base ≠ []) : c ≠ 0x2e := by
    obtain ⟨b, bs, rfl⟩ := List.exists_cons_of_ne_nil hne
    rw [← (List.cons.inj hpsz).1]
    rintro rfl
    exact hbase.dot_notMem List.mem_cons_self
  rintro (hnil | ⟨ext, hpsz, hext, hpart⟩)
  · cases h with
    | dot => cases hnil
    | dotDot => cases hnil
    | base hne _ => exact hne hnil
    | withExtension _ _ _ => exact List.append_ne_nil_of_right_ne_nil _ (List.cons_ne_nil _ _) hnil
  · cases h with
    | dot =>
      cases hpsz
      exact hext rfl
    | dotDot =>
      cases hpsz
      exact hpart.dot_notMem List.mem_cons_self
    | base hne hbase => exact hstart hbase ((List.append_nil psz).trans hpsz) hne rfl
    | withExtension hne hbase _ => exact hstart hbase hpsz hne rfl

/-- The names that `hasNon83Name` takes for 8.3 names. -/
theorem hasNon83Name_eq_false_iff (pszName : List UInt8) :
    hasNon83Name pszName = false ↔ IsDosName pszName ∨ LacksBase pszName := by
  rw [hasNon83Name]
  split
  · next hdots =>
    refine iff_of_true rfl (Or.inl ?_)
    rcases hdots with rfl | rfl
    · exact .dot
    · exact .dotDot
  · next hdots =>
    rw [non83Loop_base_iff (Nat.zero_le 8)]
    constructor
    · rintro (hpart | ⟨base, ext, rfl, hbase, hext⟩)
      · by_cases hne : pszName = []
        · exact Or.inr (Or.inl hne)
        · exact Or.inl (.base hne hpart)
      -- without a base the name is a dot with an extension, since `.` and `..` are set apart
      · by_cases hne : base = []
        · subst hne
          refine Or.inr (Or.inr ⟨ext, rfl, ?_, hext⟩)
          rintro rfl
          exact hdots (Or.inl rfl)
        · exact Or.inl (.withExtension hne hbase hext)
    · rintro (hname | rfl | ⟨ext, rfl, -, hext⟩)
      · cases hname with
        | dot => exact absurd (Or.inl rfl) hdots
        | dotDot => exact absurd (Or.inr rfl) hdots
        | base _ hbase => exact Or.inl hbase
        | withExtension _ hbase hext => exact Or.inr ⟨_, _, rfl, hbase, hext⟩
      · exact Or.inl (isNamePart_nil _)
      · exact isNameRest_dot_iff.mpr hext

/-- `hasNon83Name` tells whether a name is an 8.3 name, unless the name lacks its base. -/
theorem hasNon83Name_iff (pszName : List UInt8) :
    (hasNon83Name pszName = false ↔ IsDosName pszName) ↔ ¬ LacksBase pszName := by
  rw [hasNon83Name_eq_false_iff]
  constructor
  · intro h hlacks
    exact (h.mp (Or.inr hlacks)).not_lacksBase hlacks
  · intro hbase
    exact ⟨fun h => h.resolve_right hbase, Or.inl⟩

/-- `.a` is taken for an 8.3 name. -/
theorem hasNon83Name_without_base :
    ¬ (hasNon83Name [0x2e, 0x61] = false ↔ IsDosName [0x2e, 0x61]) := by
  intro h
  have hpart : IsNamePart 3 [0x61] :=
    isNamePart_cons_iff.mpr ⟨by decide, by decide, isNamePart_nil _⟩
  have hlacks : LacksBase [0x2e, 0x61] := Or.inr ⟨[0x61], rfl, List.cons_ne_nil _ _, hpart⟩
  exact (h.mp (by decide)).not_lacksBase hlacks

end Isofs
