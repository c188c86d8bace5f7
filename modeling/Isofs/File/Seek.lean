import Isofs.File.Read

/-!
# Seeks

When `fsChgFilePtr` computes the exact position, and the position over a sequence of seeks.
-/

namespace Isofs

open TwosComplement

/-- What a seek is relative to. -/
def seekBase (sffsi : Sffsi) : SeekType → Option ℕ
  | .FILE_BEGIN => some 0
  | .FILE_CURRENT => some sffsi.sfiPosition.toNat
  | .FILE_END => some sffsi.sfiSize.toNat
  | .unknown => none

/-- The seek to the exact position `t` has ended with `r`. -/
structure SeeksTo (sffsi : Sffsi) (t : ℤ) (r : ApiRet × Sffsi) : Prop where
  negative : t < 0 → r.1 = .ERROR_NEGATIVE_SEEK ∧ r.2.sfiPosition = sffsi.sfiPosition
  reaches : 0 ≤ t → t ≤ 2 ^ 31 - 1 → r.1 = .NO_ERROR ∧ (r.2.sfiPosition.toNat : ℤ) = t
  large : 2 ^ 31 - 1 < t → r.1 ≠ .NO_ERROR ∧ r.2.sfiPosition = sffsi.sfiPosition

/-- A seek moves to the exact position or fails. -/
def SeeksExactly (sffsi : Sffsi) (usType : SeekType) (ibOffset : Int32) : Prop :=
  ∀ base ∈ seekBase sffsi usType,
    SeeksTo sffsi (base + ibOffset.toInt) (fsChgFilePtr sffsi usType ibOffset.toInt)

/-- An offset from the beginning is not negative, and the exact position fits 32 bits. -/
def SeekFits (sffsi : Sffsi) (usType : SeekType) (ibOffset : Int32) : Prop :=
  (usType = .FILE_BEGIN → 0 ≤ ibOffset.toInt) ∧
    ∀ base ∈ seekBase sffsi usType, base + ibOffset.toInt < 2 ^ 32

/-! ### One seek -/

theorem toNat_ofInt {t : ℤ} (hlo : 0 ≤ t) (hhi : t < 2 ^ 32) :
    ((UInt32.ofInt t).toNat : ℤ) = t := by
  rw [UInt32.ofInt, UInt32.toNat_ofNat']
  omega

section SeekFrom

variable {sffsi : Sffsi} {base : UInt32} {ibOffset : ℤ}

theorem seekFrom_of_neg (h : wrap32 (base.toNat + ibOffset) < 0) :
    seekFrom sffsi base ibOffset = (.ERROR_NEGATIVE_SEEK, sffsi) := by
  simp only [seekFrom, wrap32_wrap32_add, if_pos h]

theorem seekFrom_of_nonneg (h : 0 ≤ wrap32 (base.toNat + ibOffset)) :
    seekFrom sffsi base ibOffset = (.NO_ERROR,
      { sffsi with sfiPosition := UInt32.ofInt (wrap32 (base.toNat + ibOffset)) }) := by
  simp only [seekFrom, wrap32_wrap32_add, if_neg (Int.not_lt.mpr h)]

/-- A seek from a base is exact unless the position does not fit 32 bits. -/
theorem seekFrom_seeksTo_iff (hlo : -2 ^ 31 ≤ ibOffset) (hhi : ibOffset < 2 ^ 31) :
    SeeksTo sffsi (base.toNat + ibOffset) (seekFrom sffsi base ibOffset) ↔
      base.toNat + ibOffset < 2 ^ 32 := by
  have hbase := base.toNat_lt
  constructor
  · intro h
    by_contra hwraps
    -- the sum wraps to a position that is accepted
    have hwrap : 0 ≤ wrap32 (base.toNat + ibOffset) := by
      unfold wrap32
      omega
    have hrc := (h.large (by omega)).1
    rw [seekFrom_of_nonneg hwrap] at hrc
    exact hrc rfl
  · intro hfits
    refine ⟨fun hneg => ?_, fun hpos hle => ?_, fun hlarge => ?_⟩
    · rw [seekFrom_of_neg (by unfold wrap32; omega)]
      exact ⟨rfl, rfl⟩
    · have hwrap : wrap32 (base.toNat + ibOffset) = base.toNat + ibOffset :=
        wrap32_eq_self (by omega) (by omega)
      rw [seekFrom_of_nonneg (by omega), hwrap]
      exact ⟨rfl, toNat_ofInt hpos (by omega)⟩
    · rw [seekFrom_of_neg (by unfold wrap32; omega)]
      exact ⟨nofun, rfl⟩

end SeekFrom

/-- A seek from the beginning is exact unless its offset is negative. -/
theorem seekBegin_seeksTo_iff {sffsi : Sffsi} {ibOffset : ℤ} (hhi : ibOffset < 2 ^ 31) :
    SeeksTo sffsi ibOffset (fsChgFilePtr sffsi .FILE_BEGIN ibOffset) ↔ 0 ≤ ibOffset := by
  constructor
  · intro h
    by_contra hneg
    have hrc := (h.negative (Int.not_le.mp hneg)).1
    cases hrc
  · intro hpos
    refine ⟨fun hneg => absurd hneg (Int.not_lt.mpr hpos), fun _ _ => ?_, fun hlarge => ?_⟩
    · exact ⟨rfl, toNat_ofInt hpos (by omega)⟩
    · omega

theorem seeksExactly_iff_seekFits (sffsi : Sffsi) (usType : SeekType) (ibOffset : Int32) :
    SeeksExactly sffsi usType ibOffset ↔ SeekFits sffsi usType ibOffset := by
  have hlo := ibOffset.le_toInt
  have hhi := ibOffset.toInt_lt
  cases usType with
  | FILE_BEGIN =>
    simp only [SeeksExactly, SeekFits, seekBase, Option.mem_some_iff, forall_eq', Int.natCast_zero,
      Int.zero_add, seekBegin_seeksTo_iff hhi, forall_const]
    exact ⟨fun hpos => ⟨hpos, by omega⟩, fun h => h.1⟩
  | FILE_CURRENT => simp [SeeksExactly, SeekFits, seekBase, fsChgFilePtr,
    seekFrom_seeksTo_iff hlo hhi]
  | FILE_END => simp [SeeksExactly, SeekFits, seekBase, fsChgFilePtr, seekFrom_seeksTo_iff hlo hhi]
  | unknown => simp [SeeksExactly, SeekFits, seekBase]

/-! ### Sequences of seeks -/

/-- A sequence of seeks on one open file. -/
def seekRun (sffsi : Sffsi) (seeks : List (SeekType × Int32)) : Sffsi :=
  seeks.foldl (fun sffsi seek => (fsChgFilePtr sffsi seek.1 seek.2.toInt).2) sffsi

/-- Each seek of a sequence fits where it is made. -/
def SeekRunFits (sffsi : Sffsi) : List (SeekType × Int32) → Prop
  | [] => True
  | seek :: seeks => SeekFits sffsi seek.1 seek.2 ∧
      SeekRunFits (fsChgFilePtr sffsi seek.1 seek.2.toInt).2 seeks

/-- The exact position to which a seek in a file of `size` bytes leads from `pos`. -/
def exactTarget (size : ℕ) (pos : ℤ) : SeekType → ℤ → ℤ
  | .FILE_BEGIN, ibOffset => ibOffset
  | .FILE_CURRENT, ibOffset => pos + ibOffset
  | .FILE_END, ibOffset => size + ibOffset
  | .unknown, _ => pos

/-- A seek of exact arithmetic: a position that is negative or does not fit 31 bits is refused. -/
def exactSeek (size : ℕ) (pos : ℤ) (seek : SeekType × Int32) : ℤ :=
  let t := exactTarget size pos seek.1 seek.2.toInt
  if 0 ≤ t ∧ t ≤ 2 ^ 31 - 1 then t else pos

def exactSeekRun (size : ℕ) (pos : ℤ) (seeks : List (SeekType × Int32)) : ℤ :=
  seeks.foldl (exactSeek size) pos

theorem sfiSize_fsChgFilePtr (sffsi : Sffsi) (usType : SeekType) (ibOffset : ℤ) :
    (fsChgFilePtr sffsi usType ibOffset).2.sfiSize = sffsi.sfiSize := by
  have hfrom (base : UInt32) : (seekFrom sffsi base ibOffset).2.sfiSize = sffsi.sfiSize := by
    rcases Int.lt_or_le (wrap32 (base.toNat + ibOffset)) 0 with hneg | hpos
    · rw [seekFrom_of_neg hneg]
    · rw [seekFrom_of_nonneg hpos]
  cases usType with
  | FILE_BEGIN => rfl
  | FILE_CURRENT =>
    rw [fsChgFilePtr]
    exact hfrom sffsi.sfiPosition
  | FILE_END =>
    rw [fsChgFilePtr]
    exact hfrom sffsi.sfiSize
  | unknown => rfl

theorem SeeksTo.position {sffsi : Sffsi} {t : ℤ} {r : ApiRet × Sffsi} (h : SeeksTo sffsi t r) :
    (r.2.sfiPosition.toNat : ℤ) =
      if 0 ≤ t ∧ t ≤ 2 ^ 31 - 1 then t else sffsi.sfiPosition.toNat := by
  split
  · next ht => exact (h.reaches ht.1 ht.2).2
  · next ht =>
    rcases Int.lt_or_le t 0 with hneg | hpos
    · rw [(h.negative hneg).2]
    · rw [(h.large (by omega)).2]

/-- A seek that fits leaves the exact position. -/
theorem position_of_seekFits {sffsi : Sffsi} {usType : SeekType} {ibOffset : Int32}
    (h : SeekFits sffsi usType ibOffset) :
    ((fsChgFilePtr sffsi usType ibOffset.toInt).2.sfiPosition.toNat : ℤ) =
      exactSeek sffsi.sfiSize.toNat sffsi.sfiPosition.toNat (usType, ibOffset) := by
  have hexact := (seeksExactly_iff_seekFits sffsi usType ibOffset).mpr h
  cases usType with
  | FILE_BEGIN =>
    have hposition := (hexact 0 rfl).position
    rw [Int.natCast_zero, Int.zero_add] at hposition
    exact hposition
  | FILE_CURRENT => exact (hexact _ rfl).position
  | FILE_END => exact (hexact _ rfl).position
  | unknown =>
    rw [exactSeek, exactTarget, ite_self]
    rfl

theorem position_seekRun {seeks : List (SeekType × Int32)} {sffsi : Sffsi}
    (h : SeekRunFits sffsi seeks) :
    ((seekRun sffsi seeks).sfiPosition.toNat : ℤ) =
      exactSeekRun sffsi.sfiSize.toNat sffsi.sfiPosition.toNat seeks := by
  induction seeks generalizing sffsi with
  | nil => rfl
  | cons seek seeks ih =>
    obtain ⟨hseek, hrest⟩ := h
    have hstep := position_of_seekFits hseek
    have hrun := ih hrest
    rw [sfiSize_fsChgFilePtr, hstep] at hrun
    exact hrun

/-- The exact position stays below the limit. -/
theorem exactSeekRun_le {size : ℕ} {pos : ℤ} (hpos : 0 ≤ pos ∧ pos ≤ 2 ^ 31 - 1)
    (seeks : List (SeekType × Int32)) :
    0 ≤ exactSeekRun size pos seeks ∧ exactSeekRun size pos seeks ≤ 2 ^ 31 - 1 := by
  induction seeks generalizing pos with
  | nil => exact hpos
  | cons seek seeks ih =>
    refine @ih (exactSeek size pos seek) ?_
    rw [exactSeek]
    split
    · next ht => exact ht
    · exact hpos

/-- A seek is exact or fails exactly when it fits, and over a sequence of seeks from the start of
the file that all fit the position is the exact one. -/
theorem fsChgFilePtr_exact_iff (sffsi : Sffsi) :
    (∀ (usType : SeekType) (ibOffset : Int32),
      SeeksExactly sffsi usType ibOffset ↔ SeekFits sffsi usType ibOffset) ∧
    ∀ seeks : List (SeekType × Int32), sffsi.sfiPosition = 0 → SeekRunFits sffsi seeks →
      ((seekRun sffsi seeks).sfiPosition.toNat : ℤ) =
        exactSeekRun sffsi.sfiSize.toNat 0 seeks ∧
      (seekRun sffsi seeks).sfiPosition.toNat ≤ 2 ^ 31 - 1 := by
  refine ⟨seeksExactly_iff_seekFits sffsi, fun seeks hstart hfits => ?_⟩
  have hrun := position_seekRun hfits
  have hle := (@exactSeekRun_le sffsi.sfiSize.toNat 0 ⟨Int.le_refl 0, by decide⟩ seeks).2
  rw [hstart, UInt32.toNat_zero, Int.natCast_zero] at hrun
  exact ⟨hrun, by omega⟩

/-- An open file of 100 bytes, and seeks to byte 10, to byte 15 and to the end. -/
def seekFile : Sffsi := { (default : Sffsi) with sfiSize := 100 }

def seekSample : List (SeekType × Int32) := [(.FILE_BEGIN, 10), (.FILE_CURRENT, 5), (.FILE_END, 0)]

theorem fsChgFilePtr_exact_sample :
    ((seekRun seekFile seekSample).sfiPosition.toNat : ℤ) = exactSeekRun 100 0 seekSample ∧
      (seekRun seekFile seekSample).sfiPosition.toNat ≤ 2 ^ 31 - 1 := by
  refine (fsChgFilePtr_exact_iff seekFile).2 seekSample rfl ?_
  simp only [seekSample, SeekRunFits, SeekFits, seekBase, Option.mem_some_iff, forall_eq', and_true]
  decide

/-- A seek to byte -1 from the beginning succeeds, and leaves a wrapped position. -/
theorem fsChgFilePtr_wraps :
    ¬ SeeksExactly seekFile .FILE_BEGIN (-1) ∧
      fsChgFilePtr seekFile .FILE_BEGIN (-1) =
        (.NO_ERROR, { seekFile with sfiPosition := 4294967295 }) := by
  constructor
  · intro h
    have hrc := ((h 0 rfl).negative (by decide)).1
    cases hrc
  · rfl

end Isofs
