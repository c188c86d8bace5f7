import Mathlib.Algebra.Group.Int.Defs
import Mathlib.Algebra.Group.Nat.Defs
import Mathlib.Data.Int.Notation
import Mathlib.Data.List.Basic
import Mathlib.Tactic.Common

/-!
# Byte memories

A memory is a total map from addresses to bytes. Buffers of a program are
memories of which only a prefix belongs to the buffer, so an access past the end
of a buffer is visible as a dependence on the bytes behind it.
-/

/-- Byte contents addressed from zero. -/
abbrev Memory := ℕ → UInt8

namespace Memory

/-- Copy `bytes` over the memory from address `off` on. -/
def blit (m : Memory) (off : ℕ) (bytes : List UInt8) : Memory := fun i =>
  if off ≤ i then (bytes[i - off]?).getD (m i) else m i

/-- `memset(m, 0, n)`. -/
def clear (m : Memory) (n : ℕ) : Memory := fun i => if i < n then 0 else m i

/-- The `n` bytes from address `off` on. -/
def slice (m : Memory) (off n : ℕ) : List UInt8 := (List.range n).map fun i => m (off + i)

theorem slice_congr {m m' : Memory} {off n : ℕ} (h : ∀ j < n, m (off + j) = m' (off + j)) :
    m.slice off n = m'.slice off n :=
  List.map_congr_left fun j hj => h j (List.mem_range.mp hj)

/-- A memory of zero bytes. -/
def zeros : Memory := fun _ => 0

@[simp] theorem length_slice (m : Memory) (off n : ℕ) : (m.slice off n).length = n := by
  simp [slice]

@[simp] theorem getElem_slice (m : Memory) (off n i : ℕ) (h : i < (m.slice off n).length) :
    (m.slice off n)[i] = m (off + i) := by
  simp [slice]

@[simp] theorem blit_nil (m : Memory) (off : ℕ) : m.blit off [] = m := by
  funext i
  simp [blit]

/-- Inside the copied range the copy is read back. -/
theorem blit_of_lt (m : Memory) {off i : ℕ} {bytes : List UInt8} (hlo : off ≤ i)
    (hhi : i - off < bytes.length) : m.blit off bytes i = bytes[i - off] := by
  simp [blit, hlo, hhi]

/-- Outside the copied range the memory is unchanged. -/
theorem blit_of_not (m : Memory) {off i : ℕ} {bytes : List UInt8}
    (h : i < off ∨ off + bytes.length ≤ i) : m.blit off bytes i = m i := by
  by_cases hlo : off ≤ i
  · have hlen : bytes.length ≤ i - off := by omega
    simp [blit, hlo, List.getElem?_eq_none hlen]
  · simp [blit, hlo]

/-- Copying back what stands there changes nothing. -/
theorem blit_slice (m : Memory) (off n : ℕ) : m.blit off (m.slice off n) = m := by
  funext i
  by_cases h : off ≤ i ∧ i - off < n
  · rw [blit_of_lt m h.1 (by rw [length_slice]; exact h.2), getElem_slice]
    congr 1
    omega
  · refine blit_of_not m ?_
    rw [length_slice]
    omega

/-- Two memories agree on the addresses below `n`. -/
def AgreeBelow (n : ℕ) (m m' : Memory) : Prop := ∀ i < n, m i = m' i

theorem AgreeBelow.refl (n : ℕ) (m : Memory) : AgreeBelow n m m := fun _ _ => rfl

theorem AgreeBelow.mono {n k : ℕ} {m m' : Memory} (h : AgreeBelow n m m') (hle : k ≤ n) :
    AgreeBelow k m m' :=
  fun i hi => h i (by omega)

/-- The same bytes copied over two buffers that agree. -/
theorem AgreeBelow.blit {n : ℕ} {b b' : Memory} (h : AgreeBelow n b b') (bytes : List UInt8) :
    AgreeBelow n (b.blit 0 bytes) (b'.blit 0 bytes) := by
  intro i hi
  simp only [Memory.blit, Nat.zero_le, if_true, h i hi]

/-- A whole block hides what was in the buffer. -/
theorem agreeBelow_blit_of_length {n : ℕ} {bytes : List UInt8} (h : bytes.length = n)
    (b b' : Memory) : AgreeBelow n (b.blit 0 bytes) (b'.blit 0 bytes) := by
  intro i hi
  rw [blit_of_lt b (Nat.zero_le i) (by omega), blit_of_lt b' (Nat.zero_le i) (by omega)]

/-- Bytes copied behind others make one copy of both. -/
theorem blit_append (m : Memory) (off : ℕ) (x y : List UInt8) :
    (m.blit off x).blit (off + x.length) y = m.blit off (x ++ y) := by
  funext i
  by_cases hlo : off + x.length ≤ i
  · have hoff : off ≤ i := by omega
    have hx : x.length ≤ i - off := by omega
    have hi : i - (off + x.length) = i - off - x.length := by omega
    simp only [blit, if_pos hlo, if_pos hoff, List.getElem?_append_right hx, hi,
      List.getElem?_eq_none hx, Option.getD_none]
  · by_cases hoff : off ≤ i
    · have hx : i - off < x.length := by omega
      simp only [blit, if_neg hlo, if_pos hoff, List.getElem?_append_left hx]
    · simp only [blit, if_neg hlo, if_neg hoff]

/-- `x` copied over the start of `y`. -/
def overlay (x y : List UInt8) : List UInt8 := x ++ y.drop x.length

theorem blit_overlay (m : Memory) (off : ℕ) (x y : List UInt8) :
    (m.blit off y).blit off x = m.blit off (overlay x y) := by
  funext i
  by_cases hoff : off ≤ i
  · simp only [blit, if_pos hoff, overlay]
    by_cases hx : i - off < x.length
    · rw [List.getElem?_append_left hx, List.getElem?_eq_getElem hx]
      rfl
    · have hle : x.length ≤ i - off := by omega
      have hi : x.length + (i - off - x.length) = i - off := by omega
      rw [List.getElem?_append_right hle, List.getElem?_drop, hi, List.getElem?_eq_none hle]
      rfl
  · simp only [blit, if_neg hoff]

theorem length_overlay (x y : List UInt8) : (overlay x y).length = max x.length y.length := by
  rw [overlay, List.length_append, List.length_drop]
  omega

theorem blit_blit (b : Memory) (bytes : List UInt8) :
    (b.blit 0 bytes).blit 0 bytes = b.blit 0 bytes := by
  funext i
  simp only [Memory.blit, Nat.zero_le, if_true]
  cases bytes[i - 0]? <;> rfl

/-- The unsigned little-endian 32-bit number at address `off`. -/
def le32 (m : Memory) (off : ℕ) : ℕ :=
  (m off).toNat + (m (off + 1)).toNat * 2 ^ 8 + (m (off + 2)).toNat * 2 ^ 16 +
    (m (off + 3)).toNat * 2 ^ 24

/-- The four little-endian bytes of a number. -/
def le32Bytes (n : ℕ) : List UInt8 :=
  [UInt8.ofNat n, UInt8.ofNat (n / 2 ^ 8), UInt8.ofNat (n / 2 ^ 16), UInt8.ofNat (n / 2 ^ 24)]

theorem le32_lt (m : Memory) (off : ℕ) : m.le32 off < 2 ^ 32 := by
  have h0 := (m off).toNat_lt
  have h1 := (m (off + 1)).toNat_lt
  have h2 := (m (off + 2)).toNat_lt
  have h3 := (m (off + 3)).toNat_lt
  rw [le32]
  omega

/-- A number below `2 ^ 32` is read back from its bytes. -/
theorem le32_le32Bytes {m : Memory} {off n : ℕ} (hn : n < 2 ^ 32)
    (h : ∀ j (hj : j < 4), m (off + j) = (le32Bytes n)[j]) : m.le32 off = n := by
  have h0 : m off = UInt8.ofNat n := h 0 (by omega)
  have h1 : m (off + 1) = UInt8.ofNat (n / 2 ^ 8) := h 1 (by omega)
  have h2 : m (off + 2) = UInt8.ofNat (n / 2 ^ 16) := h 2 (by omega)
  have h3 : m (off + 3) = UInt8.ofNat (n / 2 ^ 24) := h 3 (by omega)
  simp only [le32, h0, h1, h2, h3, UInt8.toNat_ofNat']
  omega

/-- `bytes` stand in the memory from `off` on. -/
def HoldsAt (m : Memory) (off : ℕ) (bytes : List UInt8) : Prop :=
  ∀ j (hj : j < bytes.length), m (off + j) = bytes[j]

theorem holdsAt_append {m : Memory} {off : ℕ} {x y : List UInt8} :
    HoldsAt m off (x ++ y) ↔ HoldsAt m off x ∧ HoldsAt m (off + x.length) y := by
  constructor
  · intro h
    refine ⟨fun j hj => ?_, fun j hj => ?_⟩
    · rw [h j (by rw [List.length_append]; omega), List.getElem_append_left hj]
    · rw [Nat.add_assoc, h (x.length + j) (by rw [List.length_append]; omega),
        List.getElem_append_right (Nat.le_add_right _ _)]
      simp only [Nat.add_sub_cancel_left]
  · rintro ⟨hx, hy⟩ j hj
    rw [List.length_append] at hj
    by_cases hjx : j < x.length
    · rw [hx j hjx, List.getElem_append_left hjx]
    · have hoff : off + j = off + x.length + (j - x.length) := by omega
      rw [hoff, hy (j - x.length) (by omega), List.getElem_append_right (by omega)]

theorem HoldsAt.of_front {m : Memory} {off : ℕ} {x y : List UInt8} (h : HoldsAt m off y)
    (hxy : x <+: y) : HoldsAt m off x := by
  obtain ⟨z, rfl⟩ := hxy
  exact (holdsAt_append.mp h).1

theorem holdsAt_blit (m : Memory) (off : ℕ) (bytes : List UInt8) :
    HoldsAt (m.blit off bytes) off bytes := by
  intro j hj
  rw [blit_of_lt m (Nat.le_add_right off j) (by omega)]
  simp only [Nat.add_sub_cancel_left]

theorem HoldsAt.slice {m : Memory} {off : ℕ} {bytes : List UInt8} (h : HoldsAt m off bytes) :
    m.slice off bytes.length = bytes := by
  refine List.ext_getElem (length_slice m off bytes.length) fun j hj hj' => ?_
  rw [getElem_slice, h j hj']

theorem holdsAt_iff_slice {m : Memory} {off : ℕ} {bytes : List UInt8} :
    HoldsAt m off bytes ↔ m.slice off bytes.length = bytes := by
  refine ⟨HoldsAt.slice, fun h j hj => ?_⟩
  have hget := List.getElem_of_eq h (by rwa [length_slice])
  rwa [getElem_slice] at hget

theorem holdsAt_singleton {m : Memory} {off : ℕ} {b : UInt8} : HoldsAt m off [b] ↔ m off = b := by
  constructor
  · exact fun h => h 0 (Nat.zero_lt_succ 0)
  · intro h j hj
    obtain rfl : j = 0 := Nat.lt_one_iff.mp hj
    exact h

theorem HoldsAt.le32 {m : Memory} {off n : ℕ} (h : HoldsAt m off (le32Bytes n)) (hn : n < 2 ^ 32) :
    m.le32 off = n :=
  le32_le32Bytes hn h

/-- The number at `off` is read from the four bytes at `off`. -/
theorem le32_congr {m m' : Memory} {off off' : ℕ} (h : ∀ j < 4, m (off + j) = m' (off' + j)) :
    m.le32 off = m'.le32 off' := by
  have h0 := h 0 (by omega)
  have h1 := h 1 (by omega)
  have h2 := h 2 (by omega)
  have h3 := h 3 (by omega)
  simp only [Nat.add_zero] at h0
  simp only [le32, h0, h1, h2, h3]

end Memory

/-- A byte other than NUL is positive. -/
theorem UInt8.toNat_pos_of_ne_zero {b : UInt8} (h : b ≠ 0) : 0 < b.toNat := by
  rcases Nat.eq_zero_or_pos b.toNat with h0 | h0
  · exact absurd (UInt8.toNat_inj.mp (by simpa using h0)) h
  · exact h0
