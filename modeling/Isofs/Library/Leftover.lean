import Isofs.Library.Memory

/-!
# Values that ignore a buffer

A function of a memory ignores the first `n` bytes when memories that agree from address `n` on
give it the same value. A copy out of a buffer ignores what was left in the buffer exactly when
bytes have been written over all that is copied.
-/

namespace Memory

variable {α β γ : Type*} {n len : ℕ} {m m' : Memory} {f g : Memory → β}

/-- Two memories agree from address `n` on. -/
def AgreeFrom (n : ℕ) (m m' : Memory) : Prop := ∀ i, n ≤ i → m i = m' i

theorem AgreeFrom.symm (h : AgreeFrom n m m') : AgreeFrom n m' m := fun i hi => (h i hi).symm

theorem AgreeFrom.trans {m'' : Memory} (h : AgreeFrom n m m') (h' : AgreeFrom n m' m'') :
    AgreeFrom n m m'' :=
  fun i hi => (h i hi).trans (h' i hi)

/-- Bytes written to the start of a buffer stay in it. -/
theorem agreeFrom_blit {bytes : List UInt8} (h : bytes.length ≤ n) (m : Memory) :
    AgreeFrom n m (m.blit 0 bytes) := by
  intro i hi
  exact (blit_of_not m (Or.inr (by omega))).symm

/-- The value of `f` does not depend on the first `n` bytes. -/
def Ignores (n : ℕ) (f : Memory → β) : Prop := ∀ m m', AgreeFrom n m m' → f m = f m'

theorem Ignores.const (n : ℕ) (b : β) : Ignores n fun _ => b := by
  intro m m' _
  rfl

theorem Ignores.map (h : Ignores n f) (g : β → γ) : Ignores n fun m => g (f m) := by
  intro m m' hm
  exact congrArg g (h m m' hm)

theorem Ignores.pair {k : Memory → γ} (hf : Ignores n f) (hk : Ignores n k) :
    Ignores n fun m => (f m, k m) := by
  intro m m' hm
  exact Prod.ext (hf m m' hm) (hk m m' hm)

/-- Functions with the same values. -/
theorem ignores_congr (h : ∀ m, f m = g m) : Ignores n f ↔ Ignores n g := by
  have hfg : f = g := funext h
  rw [hfg]

/-- One fixed part does not matter. -/
theorem ignores_const_pair_iff (a : γ) : (Ignores n fun m => (a, f m)) ↔ Ignores n f := by
  constructor
  · intro h
    exact h.map Prod.snd
  · intro h
    exact (Ignores.const n a).pair h

/-! ### Copies -/

/-- Bytes that have been written hide what was there. -/
theorem slice_blit_of_le {bytes : List UInt8} (h : len ≤ bytes.length) (m m' : Memory) :
    (m.blit 0 bytes).slice 0 len = (m'.blit 0 bytes).slice 0 len := by
  refine slice_congr fun j hj => ?_
  rw [blit_of_lt m (Nat.zero_le _) (by omega), blit_of_lt m' (Nat.zero_le _) (by omega)]

/-- A copy of `len` bytes ignores the buffer exactly when as many bytes have been written. -/
theorem ignores_copy_iff (hlen : len ≤ n) (c : Memory) (p : ℕ) (bytes : List UInt8) :
    (Ignores n fun m => c.blit p ((m.blit 0 bytes).slice 0 len)) ↔ len ≤ bytes.length := by
  constructor
  · intro h
    by_contra hshort
    -- the first byte that has not been written is copied
    have hcopied (m : Memory) : c.blit p ((m.blit 0 bytes).slice 0 len) (p + bytes.length) =
        m bytes.length := by
      rw [blit_of_lt c (Nat.le_add_right _ _) (by rw [length_slice]; omega), getElem_slice,
        blit_of_not m (Or.inr (by omega))]
      congr 1
      omega
    have hmark : AgreeFrom n zeros (fun i => if i = bytes.length then 1 else 0) := by
      intro i hi
      exact (if_neg (by omega)).symm
    have hsame : (0 : UInt8) = if bytes.length = bytes.length then 1 else 0 :=
      (hcopied zeros).symm.trans ((congrFun (h _ _ hmark) _).trans (hcopied _))
    rw [if_pos rfl] at hsame
    exact absurd hsame (by decide)
  · intro h
    exact fun m m' _ => congrArg (c.blit p) (slice_blit_of_le h m m')

/-- Copies that start with different bytes leave different memories. -/
theorem blit_ne_of_head {c : Memory} {p : ℕ} {b b' : UInt8} {bytes bytes' : List UInt8}
    (h : b ≠ b') : c.blit p (b :: bytes) ≠ c.blit p (b' :: bytes') := by
  intro heq
  have hbyte (b : UInt8) (bytes : List UInt8) : c.blit p (b :: bytes) p = b := by
    rw [blit_of_lt c (Nat.le_refl p) (by simp)]
    simp
  exact h ((hbyte b bytes).symm.trans ((congrFun heq p).trans (hbyte b' bytes')))

end Memory
