import Mathlib.Data.List.Nodup
import Mathlib.Logic.Function.Basic
import Mathlib.Tactic.Common

/-!
# Doubly linked lists

Nodes under addresses, each with the address of the node behind it and of the node before it.
Address zero stands for no node. The list of a first address is the list of the addresses that
its nodes have.
-/

/-- The two links of a node. -/
structure Links (α : Type*) where
  next : α → ℕ
  prev : α → ℕ
  setNext : ℕ → α → α
  setPrev : ℕ → α → α
  next_setNext : ∀ p a, next (setNext p a) = p
  prev_setNext : ∀ p a, prev (setNext p a) = prev a
  next_setPrev : ∀ p a, next (setPrev p a) = next a
  prev_setPrev : ∀ p a, prev (setPrev p a) = p

namespace Links

variable {α : Type*} (L : Links α)

/-- The nodes from `first` on are those at `ps`, and the first one has `before` before it. -/
def Linked (objects : ℕ → Option α) : ℕ → ℕ → List ℕ → Prop
  | _, first, [] => first = 0
  | before, first, p :: ps => first = p ∧ p ≠ 0 ∧
    ∃ a, objects p = some a ∧ L.prev a = before ∧ Linked objects p (L.next a) ps

/-- Set the link to the node before `p`, unless `p` is null. -/
def relinkPrev (objects : ℕ → Option α) (p before : ℕ) : ℕ → Option α :=
  if p ≠ 0 then Function.update objects p ((objects p).map (L.setPrev before)) else objects

/-- Set the link to the node behind `p`, unless `p` is null. -/
def relinkNext (objects : ℕ → Option α) (p behind : ℕ) : ℕ → Option α :=
  if p ≠ 0 then Function.update objects p ((objects p).map (L.setNext behind)) else objects

/-- Take a node out of its list. -/
def unlink (objects : ℕ → Option α) (a : α) : ℕ → Option α :=
  L.relinkNext (L.relinkPrev objects (L.next a) (L.prev a)) (L.prev a) (L.next a)

/-- Put a node at `p` before the first one of a list. -/
def push (objects : ℕ → Option α) (first p : ℕ) (a : α) : ℕ → Option α :=
  L.relinkPrev (Function.update objects p (some a)) first p

theorem relinkPrev_of_ne {objects : ℕ → Option α} {p q : ℕ} (h : q ≠ p) (before : ℕ) :
    L.relinkPrev objects p before q = objects q := by
  rw [relinkPrev]
  split
  · rw [Function.update_of_ne h]
  · rfl

theorem relinkNext_of_ne {objects : ℕ → Option α} {p q : ℕ} (h : q ≠ p) (behind : ℕ) :
    L.relinkNext objects p behind q = objects q := by
  rw [relinkNext]
  split
  · rw [Function.update_of_ne h]
  · rfl

theorem relinkPrev_self {objects : ℕ → Option α} {p : ℕ} (h : p ≠ 0) (before : ℕ) :
    L.relinkPrev objects p before p = (objects p).map (L.setPrev before) := by
  rw [relinkPrev, if_pos h, Function.update_self]

theorem relinkNext_self {objects : ℕ → Option α} {p : ℕ} (h : p ≠ 0) (behind : ℕ) :
    L.relinkNext objects p behind p = (objects p).map (L.setNext behind) := by
  rw [relinkNext, if_pos h, Function.update_self]

section Contents

variable {β : Type*} {f : α → β} {objects : ℕ → Option α} {L}

/-- Linking leaves everything else of the nodes. -/
theorem map_relinkPrev (hf : ∀ p a, f (L.setPrev p a) = f a) (p before q : ℕ) :
    (L.relinkPrev objects p before q).map f = (objects q).map f := by
  by_cases hq : q = p
  · subst hq
    rw [relinkPrev]
    split
    · rw [Function.update_self, Option.map_map]
      exact congrArg (Option.map · (objects q)) (funext fun a => hf before a)
    · rfl
  · rw [L.relinkPrev_of_ne hq]

theorem map_relinkNext (hf : ∀ p a, f (L.setNext p a) = f a) (p behind q : ℕ) :
    (L.relinkNext objects p behind q).map f = (objects q).map f := by
  by_cases hq : q = p
  · subst hq
    rw [relinkNext]
    split
    · rw [Function.update_self, Option.map_map]
      exact congrArg (Option.map · (objects q)) (funext fun a => hf behind a)
    · rfl
  · rw [L.relinkNext_of_ne hq]

theorem map_unlink (hprev : ∀ p a, f (L.setPrev p a) = f a)
    (hnext : ∀ p a, f (L.setNext p a) = f a) (objects : ℕ → Option α) (a : α) (q : ℕ) :
    (L.unlink objects a q).map f = (objects q).map f := by
  rw [unlink, map_relinkNext hnext, map_relinkPrev hprev]

theorem map_push (hprev : ∀ p a, f (L.setPrev p a) = f a) (objects : ℕ → Option α) (first p : ℕ)
    (a : α) (q : ℕ) :
    (L.push objects first p a q).map f = if q = p then some (f a) else (objects q).map f := by
  rw [push, map_relinkPrev hprev]
  split
  · next h => rw [h, Function.update_self, Option.map_some]
  · next h => rw [Function.update_of_ne h]

end Contents

variable {L} {objects objects' : ℕ → Option α} {before first : ℕ} {ps : List ℕ}

/-- A list depends on the links of its own nodes only. -/
theorem Linked.congr (h : L.Linked objects before first ps)
    (hsame : ∀ p ∈ ps, ∀ a, objects p = some a →
      ∃ b, objects' p = some b ∧ L.next b = L.next a ∧ L.prev b = L.prev a) :
    L.Linked objects' before first ps := by
  induction ps generalizing before first with
  | nil => exact h
  | cons p ps ih =>
    obtain ⟨hfirst, hp, a, ha, hprev, hrest⟩ := h
    obtain ⟨b, hb, hnext, hback⟩ := hsame p List.mem_cons_self a ha
    refine ⟨hfirst, hp, b, hb, hback.trans hprev, ?_⟩
    rw [hnext]
    exact ih hrest fun q hq => hsame q (List.mem_cons_of_mem p hq)

theorem Linked.frame (h : L.Linked objects before first ps)
    (hsame : ∀ p ∈ ps, objects' p = objects p) : L.Linked objects' before first ps :=
  h.congr fun p hp a ha => ⟨a, (hsame p hp).trans ha, rfl, rfl⟩

/-- Another node before the first one. -/
theorem Linked.relinkPrev (h : L.Linked objects before first ps) (hnodup : ps.Nodup)
    (before' : ℕ) : L.Linked (L.relinkPrev objects first before') before' first ps := by
  cases ps with
  | nil => exact h
  | cons p ps =>
    obtain ⟨rfl, hp, a, ha, -, hrest⟩ := h
    refine ⟨rfl, hp, L.setPrev before' a, ?_, L.prev_setPrev _ _, ?_⟩
    · rw [L.relinkPrev_self hp, ha]
      rfl
    · rw [L.next_setPrev]
      refine hrest.frame fun q hq => L.relinkPrev_of_ne ?_ _
      rintro rfl
      exact (List.nodup_cons.mp hnodup).1 hq

/-- Every node of a list is live. -/
theorem Linked.live (h : L.Linked objects before first ps) :
    ∀ p ∈ ps, p ≠ 0 ∧ ∃ a, objects p = some a := by
  induction ps generalizing before first with
  | nil => exact fun p hp => absurd hp List.not_mem_nil
  | cons q ps ih =>
    obtain ⟨-, hq, a, ha, -, hrest⟩ := h
    intro p hp
    rcases List.mem_cons.mp hp with rfl | hp
    · exact ⟨hq, a, ha⟩
    · exact ih hrest p hp

theorem Linked.first_eq (h : L.Linked objects before first ps) : first = ps.headD 0 := by
  cases ps with
  | nil => exact h
  | cons p ps => exact h.1

/-- The first address is null or that of a node of the list. -/
theorem Linked.first_mem (h : L.Linked objects before first ps) (hfirst : first ≠ 0) :
    first ∈ ps := by
  cases ps with
  | nil => exact absurd h hfirst
  | cons p ps =>
    rw [h.1]
    exact List.mem_cons_self

/-- The links of a node lead to its neighbours in the list. -/
theorem Linked.links {xs ys : List ℕ} {p : ℕ} {a : α}
    (h : L.Linked objects before first (xs ++ p :: ys)) (ha : objects p = some a) :
    L.prev a = xs.getLastD before ∧ L.next a = ys.headD 0 := by
  induction xs generalizing before first with
  | nil =>
    obtain ⟨-, -, a', ha', hprev, hrest⟩ := h
    rw [ha, Option.some.injEq] at ha'
    subst ha'
    exact ⟨hprev, hrest.first_eq⟩
  | cons x xs ih =>
    obtain ⟨-, -, b, -, -, hrest⟩ := h
    rw [List.getLastD_cons]
    exact ih hrest

/-- A list with a new first node. -/
theorem Linked.push (h : L.Linked objects 0 first ps) (hnodup : ps.Nodup) {p : ℕ} (hp : p ≠ 0)
    (hmem : p ∉ ps) {a : α} (hnext : L.next a = first) (hprev : L.prev a = 0) :
    L.Linked (L.push objects first p a) 0 p (p :: ps) := by
  have hne : p ≠ first := by
    rintro rfl
    exact hmem (h.first_mem hp)
  refine ⟨rfl, hp, a, ?_, hprev, ?_⟩
  · rw [Links.push, L.relinkPrev_of_ne hne, Function.update_self]
  · rw [hnext]
    refine Linked.relinkPrev (h.frame fun q hq => ?_) hnodup p
    rw [Function.update_of_ne]
    rintro rfl
    exact hmem hq

/-- What `unlink` leaves of a node that is not a neighbour. -/
theorem unlink_of_ne {a : α} {q : ℕ} (hnext : q ≠ L.next a) (hprev : q ≠ L.prev a) :
    L.unlink objects a q = objects q := by
  rw [unlink, relinkNext_of_ne _ hprev, relinkPrev_of_ne _ hnext]

/-- The neighbours of a node that `unlink` takes out are linked to each other. -/
theorem Linked.unlink {xs ys : List ℕ} {p : ℕ} {a : α}
    (h : L.Linked objects before first (xs ++ p :: ys)) (ha : objects p = some a)
    (hnodup : (before :: (xs ++ p :: ys)).Nodup) :
    L.Linked (L.unlink objects a) before (if xs = [] then L.next a else first) (xs ++ ys) := by
  induction xs generalizing before first with
  | nil =>
    obtain ⟨hbefore, hps⟩ := List.nodup_cons.mp hnodup
    obtain ⟨-, hp, a', ha', hprev, hrest⟩ := h
    rw [ha, Option.some.injEq] at ha'
    subst ha'
    subst hprev
    rw [if_pos rfl, List.nil_append]
    have hys := hrest.relinkPrev (List.nodup_cons.mp hps).2 (L.prev a)
    refine hys.frame fun q hq => L.relinkNext_of_ne ?_ _
    rintro rfl
    exact hbefore (List.mem_cons_of_mem p hq)
  | cons x xs ih =>
    obtain ⟨hbefore, hnodup⟩ := List.nodup_cons.mp hnodup
    have hlinks := h.links ha
    obtain ⟨rfl, hx, b, hb, hprev, hrest⟩ := h
    have hx_mem : first ∉ xs ++ p :: ys := (List.nodup_cons.mp hnodup).1
    rw [if_neg (List.cons_ne_nil _ _), List.cons_append]
    have hnext : first ≠ L.next a := by
      rw [hlinks.2]
      cases ys with
      | nil => exact hx
      | cons y ys =>
        rintro rfl
        simp at hx_mem
    have hrelink (q : ℕ) : L.relinkPrev objects (L.next a) q first = some b := by
      rw [L.relinkPrev_of_ne hnext, hb]
    have htail := ih hrest hnodup
    rw [List.getLastD_cons] at hlinks
    cases xs with
    | nil =>
      -- the node before the one taken out is the first one
      have hfirst : L.prev a = first := hlinks.1
      refine ⟨rfl, hx, L.setNext (L.next a) b, ?_, ?_, ?_⟩
      · rw [Links.unlink, hfirst, L.relinkNext_self hx, hrelink]
        rfl
      · rw [L.prev_setNext, hprev]
      · rw [L.next_setNext]
        exact htail
    | cons x' xs =>
      have hfirst : first ≠ L.prev a := by
        rw [hlinks.1]
        intro h
        refine hx_mem (List.mem_append_left _ ?_)
        rw [h, List.getLastD_cons]
        exact List.getLastD_mem_cons
      refine ⟨rfl, hx, b, ?_, hprev, htail⟩
      rw [unlink_of_ne hnext hfirst, hb]

end Links
