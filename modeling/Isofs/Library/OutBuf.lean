import Isofs.Library.Memory
import Isofs.Library.Procedure

/-!
# Bounded output buffers

A procedure that stores records one behind the other keeps the place of the next record
and the number of bytes that are left for it.
-/

/-- A buffer that is being filled: its memory, the place to store at and the bytes left. -/
structure OutBuf where
  mem : Memory
  off : ℕ
  room : ℕ

namespace OutBuf

open Proc

variable {ρ ρ' : Type}

/-- Store `bytes` and go behind them, or return `full` if they do not fit. -/
def put (full : ρ) (bytes : List UInt8) : Proc OutBuf ρ Unit := fun b =>
  if b.room < bytes.length then (.error full, b)
  else (.ok (), ⟨b.mem.blit b.off bytes, b.off + bytes.length, b.room - bytes.length⟩)

/-- Go `n` bytes ahead. -/
def skip (n : ℕ) : Proc OutBuf ρ Unit :=
  update fun b => { b with off := b.off + n, room := b.room - n }

/-- Overwrite what was stored at `off`. -/
def patch (off : ℕ) (bytes : List UInt8) : Proc OutBuf ρ Unit :=
  update fun b => { b with mem := b.mem.blit off bytes }

/-- Call a procedure that works on the same memory with its own place and room. -/
def locally (m : Proc OutBuf ρ Empty) : Proc OutBuf ρ' ρ := fun b =>
  let (r, b') := m.run b
  (.ok r, { b with mem := b'.mem })

/-- The buffer with `bytes` stored at its place. -/
def append (b : OutBuf) (bytes : List UInt8) : OutBuf :=
  ⟨b.mem.blit b.off bytes, b.off + bytes.length, b.room - bytes.length⟩

@[simp] theorem append_room (b : OutBuf) (bytes : List UInt8) :
    (b.append bytes).room = b.room - bytes.length := rfl

@[simp] theorem append_mem (b : OutBuf) (bytes : List UInt8) :
    (b.append bytes).mem = b.mem.blit b.off bytes := rfl

@[simp] theorem append_off (b : OutBuf) (bytes : List UInt8) :
    (b.append bytes).off = b.off + bytes.length := rfl

@[simp] theorem append_nil (b : OutBuf) : b.append [] = b := by
  rw [append, Memory.blit_nil]
  rfl

theorem append_append (b : OutBuf) (x y : List UInt8) :
    (b.append x).append y = b.append (x ++ y) := by
  have hoff : b.off + x.length + y.length = b.off + (x ++ y).length := by
    rw [List.length_append]
    omega
  have hroom : b.room - x.length - y.length = b.room - (x ++ y).length := by
    rw [List.length_append]
    omega
  simp only [append, Memory.blit_append, hoff, hroom]

theorem put_of_lt {full : ρ} {bytes : List UInt8} {b : OutBuf} (h : b.room < bytes.length) :
    put full bytes b = (.error full, b) :=
  if_pos h

theorem put_of_le {full : ρ} {bytes : List UInt8} {b : OutBuf} (h : bytes.length ≤ b.room) :
    put full bytes b = (.ok (), b.append bytes) :=
  if_neg (by omega)

/-- Storing behind what has been stored. -/
theorem put_append {full : ρ} {bytes : List UInt8} (hpos : 0 < bytes.length) (b : OutBuf)
    (before : List UInt8) :
    put full bytes (b.append before) =
      if b.room < before.length + bytes.length then (.error full, b.append before)
      else (.ok (), b.append (before ++ bytes)) := by
  split
  · exact put_of_lt (by rw [append_room]; omega)
  · rw [put_of_le (by rw [append_room]; omega), append_append]

theorem put_triple {full : ρ} {bytes : List UInt8} {P : OutBuf → Prop} {Q : Unit → OutBuf → Prop}
    {R : ρ → OutBuf → Prop} (hfull : ∀ b, P b → R full b)
    (hput : ∀ b, P b → Q () (b.append bytes)) :
    Triple P (put full bytes) Q R := by
  intro b hb
  by_cases h : b.room < bytes.length
  · exact Ends.of_error (put_of_lt h) (hfull b hb)
  · exact Ends.of_ok (put_of_le (by omega)) (hput b hb)

theorem locally_triple {m : Proc OutBuf ρ' Empty} {P : OutBuf → Prop} {Q : ρ' → OutBuf → Prop}
    {R : ρ → OutBuf → Prop}
    (h : ∀ b, P b → Q (m.run b).1 { b with mem := (m.run b).2.mem }) :
    Triple P (locally m) Q R :=
  fun b hb => h b hb

end OutBuf
