import Mathlib.Logic.Function.Basic
import Mathlib.Tactic.Common

/-!
# Heaps of objects

Objects of one type under addresses. Address zero is the null pointer, and an address is
never given out twice.
-/

/-- The live objects, and the next address to be given out. -/
structure Heap (α : Type*) where
  objects : ℕ → Option α
  next : ℕ
  next_pos : 0 < next
  objects_none : ∀ p, p = 0 ∨ next ≤ p → objects p = none

namespace Heap

variable {α : Type*}

/-- A heap without objects. -/
def empty : Heap α := ⟨fun _ => none, 1, Nat.one_pos, fun _ _ => rfl⟩

/-- Allocate an object: its address, and the heap with it. -/
def malloc (h : Heap α) (a : α) : ℕ × Heap α :=
  (h.next,
    { objects := Function.update h.objects h.next (some a)
      next := h.next + 1
      next_pos := Nat.succ_pos _
      objects_none := by
        intro p hp
        have hnext := h.next_pos
        rw [Function.update_of_ne (by omega)]
        exact h.objects_none p (by omega) })

/-- Allocate `n` objects under consecutive addresses, from `h.next` on. -/
def mallocMany (h : Heap α) (n : ℕ) (a : α) : Heap α where
  objects p := if h.next ≤ p ∧ p < h.next + n then some a else h.objects p
  next := h.next + n
  next_pos := Nat.add_pos_left h.next_pos n
  objects_none := by
    intro p hp
    have hnext := h.next_pos
    rw [if_neg (by omega)]
    exact h.objects_none p (by omega)

/-- Change the object at `p`, if there is one. -/
def modify (h : Heap α) (p : ℕ) (f : α → α) : Heap α where
  objects := Function.update h.objects p ((h.objects p).map f)
  next := h.next
  next_pos := h.next_pos
  objects_none := by
    intro q hq
    by_cases hpq : q = p
    · subst hpq
      rw [Function.update_self, h.objects_none q hq, Option.map_none]
    · rw [Function.update_of_ne hpq, h.objects_none q hq]

/-- Release the object at `p`. -/
def free (h : Heap α) (p : ℕ) : Heap α where
  objects := Function.update h.objects p none
  next := h.next
  next_pos := h.next_pos
  objects_none := by
    intro q hq
    by_cases hpq : q = p
    · rw [hpq, Function.update_self]
    · rw [Function.update_of_ne hpq, h.objects_none q hq]

/-- Release the objects at several addresses. -/
def freeMany (h : Heap α) (ps : List ℕ) : Heap α := ps.foldl free h

theorem objects_malloc (h : Heap α) (a : α) :
    (h.malloc a).2.objects = Function.update h.objects h.next (some a) := rfl

theorem objects_modify (h : Heap α) (p : ℕ) (f : α → α) :
    (h.modify p f).objects = Function.update h.objects p ((h.objects p).map f) := rfl

theorem objects_free (h : Heap α) (p : ℕ) :
    (h.free p).objects = Function.update h.objects p none := rfl

theorem objects_mallocMany (h : Heap α) (n : ℕ) (a : α) (p : ℕ) :
    (h.mallocMany n a).objects p =
      if p ∈ List.range' h.next n then some a else h.objects p := by
  simp only [mallocMany, List.mem_range'_1]

/-- The next address is free. -/
theorem objects_next (h : Heap α) : h.objects h.next = none :=
  h.objects_none h.next (Or.inr (Nat.le_refl _))

theorem next_ne_zero (h : Heap α) : h.next ≠ 0 := Nat.pos_iff_ne_zero.mp h.next_pos

theorem objects_freeMany (h : Heap α) (ps : List ℕ) (q : ℕ) :
    (h.freeMany ps).objects q = if q ∈ ps then none else h.objects q := by
  induction ps generalizing h with
  | nil => rfl
  | cons p ps ih =>
    show ((h.free p).freeMany ps).objects q = _
    rw [ih, objects_free]
    by_cases hq : q ∈ ps
    · rw [if_pos hq, if_pos (List.mem_cons_of_mem p hq)]
    · rw [if_neg hq]
      by_cases hpq : q = p
      · rw [hpq, Function.update_self, if_pos List.mem_cons_self]
      · rw [Function.update_of_ne hpq, if_neg]
        intro hmem
        rcases List.mem_cons.mp hmem with h' | h'
        · exact hpq h'
        · exact hq h'

/-- What was allocated and released again is as if it had not been. -/
theorem freeMany_mallocMany (h : Heap α) (n : ℕ) (a : α) :
    ((h.mallocMany n a).freeMany (List.range' h.next n)).objects = h.objects := by
  funext q
  rw [objects_freeMany, objects_mallocMany]
  by_cases hq : q ∈ List.range' h.next n
  · rw [if_pos hq]
    exact (h.objects_none q (Or.inr (List.mem_range'_1.mp hq).1)).symm
  · rw [if_neg hq, if_neg hq]

end Heap
