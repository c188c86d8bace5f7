import Mathlib.Algebra.GroupWithZero.Nat
import Mathlib.Data.List.Basic
import Mathlib.Tactic.Common

/-!
# Cursors

A position in a fixed string. A read gives what follows the position, at most as much as it asks
for, and moves the position past what it gave.
-/

structure Cursor (β : Type*) where
  bytes : List β
  pos : ℕ

namespace Cursor

variable {β : Type*}

/-- What a read of `n` elements gives. -/
def read (c : Cursor β) (n : ℕ) : List β := (c.bytes.drop c.pos).take n

/-- The cursor behind a read of `n` elements. -/
def advance (c : Cursor β) (n : ℕ) : Cursor β := { c with pos := c.pos + (c.read n).length }

@[simp] theorem bytes_advance (c : Cursor β) (n : ℕ) : (c.advance n).bytes = c.bytes := rfl

theorem length_read (c : Cursor β) (n : ℕ) :
    (c.read n).length = min n (c.bytes.length - c.pos) := by
  rw [read, List.length_take, List.length_drop]

theorem getElem?_read (c : Cursor β) {n i : ℕ} (hi : i < n) :
    (c.read n)[i]? = c.bytes[c.pos + i]? := by
  rw [read, List.getElem?_take_of_lt hi, List.getElem?_drop]

theorem pos_advance (c : Cursor β) (n : ℕ) :
    (c.advance n).pos = c.pos + min n (c.bytes.length - c.pos) := by
  rw [← length_read]
  rfl

theorem pos_advance_le {c : Cursor β} (h : c.pos ≤ c.bytes.length) (n : ℕ) :
    (c.advance n).pos ≤ c.bytes.length := by
  rw [pos_advance]
  omega

/-- What follows the cursor behind a read. -/
theorem drop_pos_advance (c : Cursor β) (n : ℕ) :
    c.bytes.drop (c.advance n).pos = (c.bytes.drop c.pos).drop n := by
  rw [pos_advance, List.drop_drop]
  rcases Nat.le_total n (c.bytes.length - c.pos) with hle | hle
  · rw [Nat.min_eq_left hle]
  · -- the read has reached the end
    rw [List.drop_eq_nil_of_le (by omega), List.drop_eq_nil_of_le (by omega)]

/-- Two reads give what one read of both would give. -/
theorem read_append_read (c : Cursor β) (n k : ℕ) :
    c.read n ++ (c.advance n).read k = c.read (n + k) := by
  have hlength := c.length_read n
  rw [read, read, read, advance, List.take_add, List.drop_drop]
  congr 1
  rcases Nat.le_total n (c.bytes.length - c.pos) with hle | hle
  · rw [hlength, Nat.min_eq_left hle]
  · -- the first read has reached the end
    have hend : c.bytes.length ≤ c.pos + (c.read n).length := by
      rw [hlength, Nat.min_eq_right hle]
      omega
    rw [List.drop_eq_nil_of_le hend, List.drop_eq_nil_of_le (by omega)]

/-- The reads of a sequence. -/
def reads (c : Cursor β) : List ℕ → List (List β)
  | [] => []
  | n :: ns => c.read n :: (c.advance n).reads ns

/-- Reads one after the other give the string from the position on, as far as they ask for it. -/
theorem flatten_reads (c : Cursor β) (ns : List ℕ) : (c.reads ns).flatten = c.read ns.sum := by
  induction ns generalizing c with
  | nil => rw [reads, List.flatten_nil, read, List.sum_nil, List.take_zero]
  | cons n ns ih => rw [reads, List.flatten_cons, ih, read_append_read, List.sum_cons]

end Cursor
