import Mathlib.Logic.Function.Iterate
import Mathlib.Tactic.Common

/-!
# Loops without a bound

A loop that steps until a test succeeds, run with fuel. It ends with enough fuel exactly
when the test succeeds on some iterate of its step, and then at the first such iterate.
-/

namespace Loop

variable {σ : Type*} (stop : σ → Bool) (step : σ → σ)

/-- Step until `stop` succeeds, for at most `fuel` rounds. -/
def runUntil : ℕ → σ → Option σ
  | 0, s => if stop s then some s else none
  | fuel + 1, s => if stop s then some s else runUntil fuel (step s)

variable {stop step}

theorem runUntil_of_stop {s : σ} (h : stop s = true) (fuel : ℕ) :
    runUntil stop step fuel s = some s := by
  cases fuel <;> rw [runUntil, if_pos h]

/-- A loop ends at the first iterate that stops it. -/
theorem runUntil_eq_some {fuel : ℕ} {s r : σ} (h : runUntil stop step fuel s = some r) :
    ∃ k ≤ fuel, r = step^[k] s ∧ stop r = true ∧ ∀ j < k, stop (step^[j] s) = false := by
  induction fuel generalizing s with
  | zero =>
    rw [runUntil] at h
    split at h
    · next hstop =>
      obtain rfl := Option.some.inj h
      exact ⟨0, Nat.le_refl 0, rfl, hstop, fun j hj => absurd hj (Nat.not_lt_zero j)⟩
    · cases h
  | succ fuel ih =>
    rw [runUntil] at h
    split at h
    · next hstop =>
      obtain rfl := Option.some.inj h
      exact ⟨0, Nat.zero_le _, rfl, hstop, fun j hj => absurd hj (Nat.not_lt_zero j)⟩
    · next hgo =>
      obtain ⟨k, hk, hr, hstop, hfirst⟩ := ih h
      refine ⟨k + 1, Nat.succ_le_succ hk, hr, hstop, fun j hj => ?_⟩
      cases j with
      | zero => simpa using hgo
      | succ j => exact hfirst j (Nat.lt_of_succ_lt_succ hj)

/-- With an iterate that stops it, a loop ends. -/
theorem runUntil_isSome_of_stop {k : ℕ} {s : σ} (h : stop (step^[k] s) = true) :
    (runUntil stop step k s).isSome := by
  induction k generalizing s with
  | zero =>
    rw [Function.iterate_zero_apply] at h
    rw [runUntil_of_stop h, Option.isSome_some]
  | succ k ih =>
    rw [runUntil]
    split
    · rfl
    · exact ih h

/-- A loop ends at the first iterate that stops it, with any fuel that lasts that long. -/
theorem runUntil_of_first {k fuel : ℕ} {s : σ} (h : stop (step^[k] s) = true)
    (hfirst : ∀ j < k, stop (step^[j] s) = false) (hfuel : k ≤ fuel) :
    runUntil stop step fuel s = some (step^[k] s) := by
  induction k generalizing fuel s with
  | zero => exact runUntil_of_stop h fuel
  | succ k ih =>
    obtain ⟨fuel, rfl⟩ := Nat.exists_eq_add_of_lt hfuel
    have hgo : ¬ stop s = true := by simpa using hfirst 0 (Nat.succ_pos k)
    rw [runUntil, if_neg hgo]
    exact ih h (fun j hj => hfirst (j + 1) (Nat.succ_lt_succ hj)) (by omega)

/-- A loop ends with some fuel exactly when some iterate stops it. -/
theorem exists_runUntil_isSome_iff {s : σ} :
    (∃ fuel, (runUntil stop step fuel s).isSome) ↔ ∃ k, stop (step^[k] s) = true := by
  constructor
  · rintro ⟨fuel, h⟩
    obtain ⟨r, hr⟩ := Option.isSome_iff_exists.mp h
    obtain ⟨k, -, rfl, hstop, -⟩ := runUntil_eq_some hr
    exact ⟨k, hstop⟩
  · rintro ⟨k, h⟩
    exact ⟨k, runUntil_isSome_of_stop h⟩

end Loop
