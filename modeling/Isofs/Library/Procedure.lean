import Mathlib.Tactic.Common

/-!
# Procedures with early return

Imperative procedures over a state `σ` in which a statement may return from the procedure
with a result of type `ρ`, and their triples: what holds when control reaches the end of a
statement, and what holds when the statement returns.
-/

/-- A statement of a procedure that returns `ρ`: it ends normally with a value, or returns. -/
def Proc (σ ρ α : Type) : Type := σ → Except ρ α × σ

namespace Proc

variable {σ ρ ρ' α β : Type}

/-- Run the rest of a procedure, unless it has returned. -/
protected def bind (m : Proc σ ρ α) (f : α → Proc σ ρ β) : Proc σ ρ β := fun s =>
  match m s with
  | (.ok a, s) => f a s
  | (.error r, s) => (.error r, s)

instance : Monad (Proc σ ρ) where
  pure a := fun s => (.ok a, s)
  bind := Proc.bind

/-- Return from the procedure. -/
def ret (r : ρ) : Proc σ ρ α := fun s => (.error r, s)

/-- Call a procedure: its returned value is the value of the statement. -/
def call (m : Proc σ ρ Empty) : Proc σ ρ' ρ := fun s =>
  match m s with
  | (.error r, s) => (.ok r, s)

/-- Change the state. -/
def update (f : σ → σ) : Proc σ ρ Unit := fun s => (.ok (), f s)

/-- Read from the state. -/
def read (f : σ → α) : Proc σ ρ α := fun s => (.ok (f s), s)

/-- A statement under a condition. -/
def onlyIf (c : Prop) [Decidable c] (m : Proc σ ρ Unit) : Proc σ ρ Unit :=
  if c then m else pure ()

/-- The returned value and the final state of a procedure. -/
def run (m : Proc σ ρ Empty) (s : σ) : ρ × σ :=
  match m s with
  | (.error r, s) => (r, s)

@[simp] theorem pure_apply (a : α) (s : σ) : (pure a : Proc σ ρ α) s = (.ok a, s) := rfl

@[simp] theorem ret_apply (r : ρ) (s : σ) : (ret r : Proc σ ρ α) s = (.error r, s) := rfl

@[simp] theorem update_apply (f : σ → σ) (s : σ) : (update f : Proc σ ρ Unit) s = (.ok (), f s) :=
  rfl

@[simp] theorem read_apply (f : σ → α) (s : σ) : (read f : Proc σ ρ α) s = (.ok (f s), s) := rfl

theorem onlyIf_of_true {c : Prop} [Decidable c] (h : c) (m : Proc σ ρ Unit) : onlyIf c m = m :=
  if_pos h

theorem onlyIf_of_false {c : Prop} [Decidable c] (h : ¬ c) (m : Proc σ ρ Unit) :
    onlyIf c m = pure () :=
  if_neg h

theorem bind_apply (m : Proc σ ρ α) (f : α → Proc σ ρ β) (s : σ) :
    (m >>= f) s = match m s with
      | (.ok a, s) => f a s
      | (.error r, s) => (.error r, s) := rfl

theorem bind_of_ok {m : Proc σ ρ α} {s s' : σ} {a : α} (h : m s = (.ok a, s'))
    (f : α → Proc σ ρ β) : (m >>= f) s = f a s' := by
  rw [bind_apply, h]

theorem bind_of_error {m : Proc σ ρ α} {s s' : σ} {r : ρ} (h : m s = (.error r, s'))
    (f : α → Proc σ ρ β) : (m >>= f) s = (.error r, s') := by
  rw [bind_apply, h]

theorem run_of_error {m : Proc σ ρ Empty} {s s' : σ} {r : ρ} (h : m s = (.error r, s')) :
    m.run s = (r, s') := by
  rw [run, h]

theorem run_bind_of_ok {m : Proc σ ρ α} {s s' : σ} {a : α} (h : m s = (.ok a, s'))
    (f : α → Proc σ ρ Empty) : (m >>= f).run s = (f a).run s' := by
  rw [run, bind_of_ok h, run]

/-- From `s` the statement ends with `Q` or returns with `R`. -/
def Ends (m : Proc σ ρ α) (Q : α → σ → Prop) (R : ρ → σ → Prop) (s : σ) : Prop :=
  match m s with
  | (.ok a, s) => Q a s
  | (.error r, s) => R r s

namespace Ends

variable {Q Q' : α → σ → Prop} {R R' : ρ → σ → Prop} {s : σ}

theorem of_ok {m : Proc σ ρ α} {a : α} {s' : σ} (h : m s = (.ok a, s')) (hQ : Q a s') :
    Ends m Q R s := by
  rw [Ends, h]
  exact hQ

theorem of_error {m : Proc σ ρ α} {r : ρ} {s' : σ} (h : m s = (.error r, s')) (hR : R r s') :
    Ends m Q R s := by
  rw [Ends, h]
  exact hR

/-- Every statement ends. -/
theorem true {m : Proc σ ρ α} : Ends m (fun _ _ => True) (fun _ _ => True) s := by
  rw [Ends]
  split <;> trivial

theorem mono {m : Proc σ ρ α} (h : Ends m Q R s) (hQ : ∀ a s, Q a s → Q' a s)
    (hR : ∀ r s, R r s → R' r s) : Ends m Q' R' s := by
  rw [Ends] at h ⊢
  split
  · next heq =>
    rw [heq] at h
    exact hQ _ _ h
  · next heq =>
    rw [heq] at h
    exact hR _ _ h

theorem bind {m : Proc σ ρ α} {f : α → Proc σ ρ β} {S : β → σ → Prop}
    (h : Ends m (fun a => Ends (f a) S R) R s) : Ends (m >>= f) S R s := by
  rw [Ends] at h
  rw [Ends, bind_apply]
  cases hrun : m s with
  | mk result s' =>
    rw [hrun] at h
    cases result with
    | ok a => exact h
    | error r => exact h

theorem pure {a : α} (h : Q a s) : Ends (Pure.pure a) Q R s := h

theorem ret {r : ρ} (h : R r s) : Ends (Proc.ret r : Proc σ ρ α) Q R s := h

theorem update {f : σ → σ} {Q : Unit → σ → Prop} (h : Q () (f s)) : Ends (Proc.update f) Q R s := h

theorem read {f : σ → α} (h : Q (f s) s) : Ends (Proc.read f) Q R s := h

theorem ite {c : Prop} [Decidable c] {m m' : Proc σ ρ α} (hm : c → Ends m Q R s)
    (hm' : ¬ c → Ends m' Q R s) : Ends (if c then m else m') Q R s := by
  by_cases h : c
  · rw [if_pos h]
    exact hm h
  · rw [if_neg h]
    exact hm' h

theorem onlyIf {c : Prop} [Decidable c] {m : Proc σ ρ Unit} {Q : Unit → σ → Prop}
    (hm : c → Ends m Q R s) (hskip : ¬ c → Q () s) : Ends (Proc.onlyIf c m) Q R s :=
  ite hm hskip

/-- A called procedure only ends by returning. -/
theorem call {m : Proc σ ρ' Empty} {Q : ρ' → σ → Prop} {S : Empty → σ → Prop}
    (h : Ends m S Q s) : Ends (Proc.call m : Proc σ ρ ρ') Q R s := by
  rw [Ends] at h ⊢
  rw [Proc.call]
  cases hrun : m s with
  | mk result s' =>
    rw [hrun] at h
    cases result with
    | ok a => exact a.elim
    | error r => exact h

/-- A whole procedure only ends by returning. -/
theorem run {m : Proc σ ρ Empty} {Q : Empty → σ → Prop} (h : Ends m Q R s) :
    R (m.run s).1 (m.run s).2 := by
  rw [Ends] at h
  rw [Proc.run]
  cases hrun : m s with
  | mk result s' =>
    rw [hrun] at h
    cases result with
    | ok a => exact a.elim
    | error r => exact h

end Ends

/-- From a state with `P` the statement ends with `Q` or returns with `R`. -/
def Triple (P : σ → Prop) (m : Proc σ ρ α) (Q : α → σ → Prop) (R : ρ → σ → Prop) : Prop :=
  ∀ s, P s → Ends m Q R s

namespace Triple

variable {P P' : σ → Prop} {Q Q' : α → σ → Prop} {R R' : ρ → σ → Prop}

/-- Weaker from stronger assertions. -/
theorem consequence {m : Proc σ ρ α} (h : Triple P m Q R) (hP : ∀ s, P' s → P s)
    (hQ : ∀ a s, Q a s → Q' a s) (hR : ∀ r s, R r s → R' r s) : Triple P' m Q' R' := by
  intro s hs
  exact (h s (hP s hs)).mono hQ hR

/-- Two triples of one statement hold together. -/
theorem and {m : Proc σ ρ α} (h : Triple P m Q R) (h' : Triple P' m Q' R') :
    Triple (fun s => P s ∧ P' s) m (fun a s => Q a s ∧ Q' a s) (fun r s => R r s ∧ R' r s) := by
  rintro s ⟨hs, hs'⟩
  have hr := h s hs
  have hr' := h' s hs'
  rw [Ends] at hr hr' ⊢
  split
  · next heq =>
    rw [heq] at hr hr'
    exact ⟨hr, hr'⟩
  · next heq =>
    rw [heq] at hr hr'
    exact ⟨hr, hr'⟩

theorem of_forall {m : Proc σ ρ α} (h : ∀ s, P s → Triple (· = s) m Q R) : Triple P m Q R :=
  fun s hs => h s hs s rfl

/-- A part of the precondition that is not about the state. -/
theorem given {φ : Prop} {m : Proc σ ρ α} (h : φ → Triple P m Q R) :
    Triple (fun s => φ ∧ P s) m Q R :=
  fun s hs => h hs.1 s hs.2

theorem pure {a : α} (h : ∀ s, P s → Q a s) : Triple P (Pure.pure a) Q R := h

theorem ret {r : ρ} (h : ∀ s, P s → R r s) : Triple P (Proc.ret r : Proc σ ρ α) Q R := h

theorem update {f : σ → σ} {Q : Unit → σ → Prop} (h : ∀ s, P s → Q () (f s)) :
    Triple P (Proc.update f) Q R := h

theorem read {f : σ → α} (h : ∀ s, P s → Q (f s) s) : Triple P (Proc.read f) Q R := h

/-- Sequential composition. -/
theorem bind {m : Proc σ ρ α} {f : α → Proc σ ρ β} {S : β → σ → Prop} (hm : Triple P m Q R)
    (hf : ∀ a, Triple (Q a) (f a) S R) : Triple P (m >>= f) S R := by
  intro s hs
  exact Ends.bind ((hm s hs).mono hf fun _ _ h => h)

/-- A called procedure only ends by returning. -/
theorem call {m : Proc σ ρ' Empty} {Q : ρ' → σ → Prop} {S : Empty → σ → Prop}
    (h : Triple P m S Q) : Triple P (Proc.call m : Proc σ ρ ρ') Q R :=
  fun s hs => Ends.call (h s hs)

theorem ite {c : Prop} [Decidable c] {m m' : Proc σ ρ α} (hm : c → Triple P m Q R)
    (hm' : ¬ c → Triple P m' Q R) : Triple P (if c then m else m') Q R :=
  fun s hs => Ends.ite (fun h => hm h s hs) fun h => hm' h s hs

theorem onlyIf {c : Prop} [Decidable c] {m : Proc σ ρ Unit} {Q : Unit → σ → Prop}
    (hm : c → Triple P m Q R) (hskip : ¬ c → ∀ s, P s → Q () s) :
    Triple P (Proc.onlyIf c m) Q R :=
  ite hm fun h => pure (hskip h)

/-- What a triple says of a whole procedure. -/
theorem run {m : Proc σ ρ Empty} {Q : Empty → σ → Prop} (h : Triple P m Q R) {s : σ} (hs : P s) :
    R (m.run s).1 (m.run s).2 :=
  Ends.run (h s hs)

end Triple

/-- However the statement ends, what held before still holds. -/
def Preserves (P : σ → Prop) (m : Proc σ ρ α) : Prop := Triple P m (fun _ => P) fun _ => P

namespace Preserves

variable {P : σ → Prop}

theorem pure {a : α} : Preserves P (Pure.pure a : Proc σ ρ α) := Triple.pure fun _ h => h

theorem ret {r : ρ} : Preserves P (Proc.ret r : Proc σ ρ α) := Triple.ret fun _ h => h

theorem update {f : σ → σ} (h : ∀ s, P s → P (f s)) :
    Preserves P (Proc.update f : Proc σ ρ Unit) :=
  Triple.update h

theorem read {f : σ → α} : Preserves P (Proc.read f : Proc σ ρ α) := Triple.read fun _ h => h

theorem bind {m : Proc σ ρ α} {k : α → Proc σ ρ β} (hm : Preserves P m)
    (hk : ∀ a, Preserves P (k a)) : Preserves P (m >>= k) :=
  Triple.bind hm hk

theorem ite {c : Prop} [Decidable c] {m m' : Proc σ ρ α} (hm : Preserves P m)
    (hm' : Preserves P m') : Preserves P (if c then m else m') :=
  Triple.ite (fun _ => hm) fun _ => hm'

theorem onlyIf {c : Prop} [Decidable c] {m : Proc σ ρ Unit} (hm : Preserves P m) :
    Preserves P (Proc.onlyIf c m) :=
  ite hm pure

theorem call {m : Proc σ ρ' Empty} (hm : Preserves P m) :
    Preserves P (Proc.call m : Proc σ ρ ρ') :=
  Triple.call hm

/-- What holds behind a whole procedure. -/
theorem run {m : Proc σ ρ Empty} (hm : Preserves P m) {s : σ} (h : P s) : P (m.run s).2 :=
  Triple.run hm h

end Preserves

end Proc
