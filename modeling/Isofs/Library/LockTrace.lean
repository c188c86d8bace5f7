import Isofs.Library.Transition
import Mathlib.Data.List.Basic
import Mathlib.Logic.Function.Basic
import Mathlib.Tactic.Common

/-!
# Traces of a lock

Histories of what a thread does to a lock and to the data behind it, newest event first.
A call is disciplined when it acquires the lock at most once, releases it exactly when it
has acquired it, and uses the data only in between. Threads that run disciplined calls
exclude each other in every interleaving.
-/

namespace LockTrace

inductive LockEvent where
  | acquire
  | release
  | use
  | other
  deriving DecidableEq, Repr

/-- Where a call stands: it has not acquired the lock, holds it, or has released it. -/
inductive Phase where
  | free
  | held
  | done
  deriving DecidableEq, Repr

/-- The phase after an event; a call that breaks the discipline has none. -/
def next : Phase → LockEvent → Option Phase
  | .free, .acquire => some .held
  | .free, .other => some .free
  | .held, .release => some .done
  | .held, .use => some .held
  | .held, .other => some .held
  | .done, .other => some .done
  | _, _ => none

theorem eq_of_next_acquire {p p' : Phase} (h : next p .acquire = some p') :
    p = .free ∧ p' = .held := by
  cases p <;> cases h
  exact ⟨rfl, rfl⟩

theorem eq_of_next_release {p p' : Phase} (h : next p .release = some p') :
    p = .held ∧ p' = .done := by
  cases p <;> cases h
  exact ⟨rfl, rfl⟩

theorem eq_of_next_use {p p' : Phase} (h : next p .use = some p') : p = .held ∧ p' = .held := by
  cases p <;> cases h
  exact ⟨rfl, rfl⟩

theorem eq_of_next_other {p p' : Phase} (h : next p .other = some p') : p' = p := by
  cases p <;> cases h <;> rfl

/-- The phase that a history leads to. -/
def phase : List LockEvent → Option Phase
  | [] => some .free
  | e :: es => (phase es).bind (next · e)

@[simp] theorem phase_nil : phase [] = some .free := rfl

theorem phase_cons (e : LockEvent) (es : List LockEvent) :
    phase (e :: es) = (phase es).bind (next · e) := rfl

/-- A whole call keeps the discipline. -/
def Disciplined (call : List LockEvent) : Prop :=
  phase call = some .free ∨ phase call = some .done

/-! ### Holding and releasing -/

/-- The newest of the acquires and releases is an acquire. -/
def holds : List LockEvent → Prop
  | [] => False
  | .acquire :: _ => True
  | .release :: _ => False
  | .use :: es => holds es
  | .other :: es => holds es

/-- The lock is released only while it is held. -/
def ReleasesHeld : List LockEvent → Prop
  | [] => True
  | .release :: es => holds es ∧ ReleasesHeld es
  | _ :: es => ReleasesHeld es

/-- Once the lock has been released without being held, it has been for good. -/
theorem ReleasesHeld.of_append {new old : List LockEvent} (h : ReleasesHeld (new ++ old)) :
    ReleasesHeld old := by
  induction new with
  | nil => exact h
  | cons e es ih =>
    apply ih
    cases e with
    | release => exact h.2
    | acquire => exact h
    | use => exact h
    | other => exact h

/-! ### Threads -/

/-- A thread is outside or inside, between acquire and release. -/
inductive Side where
  | outside
  | inside
  deriving DecidableEq, Repr

def move : Side → LockEvent → Option Side
  | .outside, .acquire => some .inside
  | .outside, .other => some .outside
  | .inside, .release => some .outside
  | .inside, .use => some .inside
  | .inside, .other => some .inside
  | _, _ => none

/-- The side that a history of calls leads to. -/
def side : List LockEvent → Option Side
  | [] => some .outside
  | e :: es => (side es).bind (move · e)

/-- The side of a phase. -/
def Phase.side : Phase → Side
  | .held => .inside
  | _ => .outside

/-- Behind calls that left the thread outside, the phase of a call gives the side. -/
theorem side_append {call before : List LockEvent} {p : Phase} (h : phase call = some p)
    (hbefore : side before = some .outside) : side (call ++ before) = some p.side := by
  induction call generalizing p with
  | nil =>
    rw [phase_nil, Option.some.injEq] at h
    subst h
    exact hbefore
  | cons e es ih =>
    rw [phase_cons, Option.bind_eq_some_iff] at h
    obtain ⟨q, hq, hnext⟩ := h
    rw [List.cons_append, side, ih hq, Option.bind_some]
    cases q <;> cases e <;> simp only [next, Option.some.injEq, reduceCtorEq] at hnext <;>
      subst hnext <;> rfl

/-- Disciplined calls one after the other leave the thread outside. -/
theorem side_flatten {calls : List (List LockEvent)} (h : ∀ call ∈ calls, Disciplined call) :
    side calls.flatten = some .outside := by
  induction calls with
  | nil => rfl
  | cons call calls ih =>
    rw [List.forall_mem_cons] at h
    rw [List.flatten_cons]
    rcases h.1 with hfree | hdone
    · exact side_append hfree (ih h.2)
    · exact side_append hdone (ih h.2)

/-- A history that leads to a side does so at each of its moments. -/
theorem side_of_suffix {w before : List LockEvent} (hsuffix : before <:+ w) {d : Side}
    (h : side w = some d) : ∃ d', side before = some d' := by
  obtain ⟨after, rfl⟩ := hsuffix
  induction after generalizing d with
  | nil => exact ⟨d, h⟩
  | cons e es ih =>
    rw [List.cons_append, side, Option.bind_eq_some_iff] at h
    obtain ⟨d', hd', -⟩ := h
    exact ih hd'

/-! ### Interleavings -/

variable {ι : Type*}

/-- The owner of the lock and what each thread has done so far. -/
structure System (ι : Type*) where
  owner : Option ι
  history : ι → List LockEvent

/-- No thread has done anything. -/
def System.start : System ι := ⟨none, fun _ => []⟩

/-- The lock after an event of thread `i`. -/
def ownerAfter (owner : Option ι) (i : ι) : LockEvent → Option ι
  | .acquire => some i
  | .release => none
  | _ => owner

/-- Each thread is on its way, and a thread inside owns the lock. -/
structure Invariant (full : ι → List LockEvent) (s : System ι) : Prop where
  suffix : ∀ i, s.history i <:+ full i
  owner : ∀ i, side (s.history i) = some .inside → s.owner = some i

theorem invariant_start (full : ι → List LockEvent) : Invariant full System.start :=
  ⟨fun _ => List.nil_suffix, nofun⟩

variable [DecidableEq ι]

/-- Thread `i` does its next event on the way to its whole history `full i`. The lock is
acquired only when it is free; nothing stops a thread from releasing a lock of another. -/
inductive Step (full : ι → List LockEvent) : System ι → System ι → Prop where
  | event (s : System ι) (i : ι) (e : LockEvent) (hnext : e :: s.history i <:+ full i)
      (hfree : e = .acquire → s.owner = none) :
      Step full s ⟨ownerAfter s.owner i e, Function.update s.history i (e :: s.history i)⟩

theorem step_preserves_invariant {full : ι → List LockEvent}
    (hfull : ∀ i, side (full i) = some .outside) {s s' : System ι} (h : Invariant full s)
    (hstep : Step full s s') : Invariant full s' := by
  cases hstep with
  | event i e hnext hfree =>
    obtain ⟨d, hd⟩ := side_of_suffix (h.suffix i) (hfull i)
    obtain ⟨d', hd'⟩ := side_of_suffix hnext (hfull i)
    have hmove : move d e = some d' := by
      rw [side, hd, Option.bind_some] at hd'
      exact hd'
    constructor
    · intro j
      by_cases hj : j = i
      · subst hj
        simpa using hnext
      · simpa [hj] using h.suffix j
    · intro j hinside
      by_cases hj : j = i
      · subst hj
        simp only [Function.update_self, hd', Option.some.injEq] at hinside
        subst hinside
        cases d <;> cases e <;> simp only [move, Option.some.injEq, reduceCtorEq] at hmove
        · rfl
        · exact h.owner j hd
        · exact h.owner j hd
      · simp only [Function.update_of_ne hj] at hinside
        have hown := h.owner j hinside
        -- the lock is taken, so `i` neither acquires nor, being outside, releases it
        have hout : d = .outside := by
          cases d with
          | outside => rfl
          | inside =>
            have hi := h.owner i hd
            rw [hown, Option.some.injEq] at hi
            exact absurd hi hj
        subst hout
        cases e with
        | acquire => exact absurd (hfree rfl) (by simp [hown])
        | release => cases hmove
        | use => cases hmove
        | other => exact hown

/-- At most one thread is ever between acquire and release. -/
theorem mutual_exclusion {full : ι → List LockEvent} (hfull : ∀ i, side (full i) = some .outside)
    {s : System ι} (hrun : Transition.Reaches (Step full) System.start s) {i j : ι}
    (hi : side (s.history i) = some .inside) (hj : side (s.history j) = some .inside) : i = j := by
  have h := Transition.invariant_of_step (Step full)
    (fun _ _ => step_preserves_invariant hfull) hrun (invariant_start full)
  have hown := h.owner i hi
  rw [h.owner j hj, Option.some.injEq] at hown
  exact hown.symm

end LockTrace
