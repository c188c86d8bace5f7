import Mathlib.Algebra.GroupWithZero.Nat
import Mathlib.Algebra.Order.Group.Nat
import Mathlib.Data.List.Basic
import Mathlib.Tactic.Common

/-!
# Storage in blocks

Byte strings that are filled up to whole blocks and put one behind the other, with the block at
which each of them starts, and lists that are cut into bins of a given room.
-/

namespace Blocks

variable {α β : Type*}

/-! ### Bins -/

/-- Cut a list into bins, each filled from its end as far as there is room. -/
def pack (size : α → ℕ) (room : ℕ) : List α → List (List α)
  | [] => []
  | x :: xs =>
    match pack size room xs with
    | [] => [[x]]
    | bin :: bins =>
      if size x + (bin.map size).sum ≤ room then (x :: bin) :: bins else [x] :: bin :: bins

variable (size : α → ℕ) (room : ℕ)

/-- No element is lost, and the order is kept. -/
theorem flatten_pack (l : List α) : (pack size room l).flatten = l := by
  induction l with
  | nil => rfl
  | cons x xs ih =>
    rw [pack]
    cases hrest : pack size room xs with
    | nil =>
      rw [hrest] at ih
      rw [← ih]
      rfl
    | cons bin bins =>
      rw [hrest, List.flatten_cons] at ih
      dsimp only
      split
      · rw [List.flatten_cons, List.cons_append, ih]
      · rw [List.flatten_cons, List.flatten_cons, ih, List.singleton_append]

/-- No bin holds more than there is room for, if every element has room in a bin. -/
theorem sum_le_of_mem_pack {size : α → ℕ} {room : ℕ} {l : List α} (h : ∀ x ∈ l, size x ≤ room) :
    ∀ bin ∈ pack size room l, (bin.map size).sum ≤ room := by
  induction l with
  | nil => exact List.forall_mem_nil _
  | cons x xs ih =>
    rw [List.forall_mem_cons] at h
    have hrest := ih h.2
    have hx : ([x].map size).sum ≤ room := by simpa using h.1
    rw [pack]
    cases hpack : pack size room xs with
    | nil => exact List.forall_mem_singleton.mpr hx
    | cons bin bins =>
      rw [hpack] at hrest
      dsimp only
      split
      · next hroom =>
        refine List.forall_mem_cons.mpr ⟨?_, (List.forall_mem_cons.mp hrest).2⟩
        rwa [List.map_cons, List.sum_cons]
      · exact List.forall_mem_cons.mpr ⟨hx, hrest⟩

/-! ### Blocks -/

/-- The number of blocks of `b` bytes that `n` bytes take up. -/
def count (b n : ℕ) : ℕ := (n + b - 1) / b

/-- The bytes, filled up to whole blocks. -/
def fill (b : ℕ) (pad : β) (bytes : List β) : List β :=
  bytes ++ List.replicate (b * count b bytes.length - bytes.length) pad

theorem le_mul_count {b : ℕ} (hb : 0 < b) (n : ℕ) : n ≤ b * count b n := by
  have hmod := Nat.mod_lt (n + b - 1) hb
  have hdiv := Nat.div_add_mod (n + b - 1) b
  rw [count]
  omega

theorem length_fill {b : ℕ} (hb : 0 < b) (pad : β) (bytes : List β) :
    (fill b pad bytes).length = b * count b bytes.length := by
  have hle := le_mul_count hb bytes.length
  rw [fill, List.length_append, List.length_replicate]
  omega

/-- The block at which the `i`-th of some strings starts, when the first starts at `base`. -/
def start (base : ℕ) (counts : List ℕ) (i : ℕ) : ℕ := base + (counts.take i).sum

/-- The strings before the `i`-th take up the blocks before its first one. -/
theorem length_flatten_take {b : ℕ} {strings : List (List β)} {counts : List ℕ}
    (h : List.Forall₂ (fun s n => s.length = b * n) strings counts) (i : ℕ) :
    ((strings.take i).flatten).length = b * (counts.take i).sum := by
  induction h generalizing i with
  | nil => simp
  | cons hs _ ih =>
    cases i with
    | zero => simp
    | succ i => rw [List.take_succ_cons, List.flatten_cons, List.length_append, hs, ih,
        List.take_succ_cons, List.sum_cons, Nat.mul_add]

/-- Every string starts before or at the end of them all. -/
theorem start_le (base : ℕ) (counts : List ℕ) (i : ℕ) :
    start base counts i ≤ base + counts.sum := by
  have hsplit := congrArg List.sum (List.take_append_drop i counts)
  rw [List.sum_append] at hsplit
  rw [start]
  omega

theorem start_add_le (base : ℕ) (counts : List ℕ) {i n : ℕ} (h : counts[i]? = some n) :
    start base counts i + n ≤ base + counts.sum := by
  obtain ⟨hi, rfl⟩ := List.getElem?_eq_some_iff.mp h
  have hnext := start_le base counts (i + 1)
  rw [start, List.take_succ_eq_append_getElem hi, List.sum_append, List.sum_singleton] at hnext
  rw [start]
  omega

end Blocks
