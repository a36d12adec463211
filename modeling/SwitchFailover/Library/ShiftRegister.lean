import Mathlib

/-!
# Division by a shift register

A register is divided by a fixed divisor one bit at a time: it moves down by one place,
and the divisor is subtracted when a one falls out.  Subtraction is exclusive or, so a
step is linear, and it loses nothing when the highest bit of the divisor is set.
-/

namespace SwitchFailover.Library.ShiftRegister

variable {width : ℕ} {divisor : BitVec width}

/-- One place of the division. -/
def shift (divisor register : BitVec width) : BitVec width :=
  if register.getLsbD 0 then divisor ^^^ (register >>> 1) else register >>> 1

/-- One bit of the message is added in the lowest place before the register moves. -/
def feed (divisor register : BitVec width) (bit : Bool) : BitVec width :=
  shift divisor (register ^^^ (BitVec.ofBool bit).setWidth width)

/-- The lowest bits of a value are fed one after the other, the lowest one first. -/
def feedBits (divisor : BitVec width) : ℕ → BitVec width → BitVec width → BitVec width
  | 0, _, register => register
  | count + 1, value, register =>
      feedBits divisor count (value >>> 1) (feed divisor register (value.getLsbD 0))

/-- What a step leaves in each place. -/
theorem getLsbD_shift (register : BitVec width) (index : ℕ) :
    (shift divisor register).getLsbD index =
      ((register.getLsbD 0 && divisor.getLsbD index) ^^ register.getLsbD (1 + index)) := by
  rw [shift]
  cases register.getLsbD 0 with
  | false => simp
  | true => simp

theorem shift_xor (left right : BitVec width) :
    shift divisor (left ^^^ right) = shift divisor left ^^^ shift divisor right := by
  apply BitVec.eq_of_getLsbD_eq
  intro index _
  rw [BitVec.getLsbD_xor, getLsbD_shift, getLsbD_shift, getLsbD_shift, BitVec.getLsbD_xor,
    BitVec.getLsbD_xor, Bool.and_xor_distrib_right]
  rw [Bool.xor_assoc, Bool.xor_left_comm (right.getLsbD 0 && _), ← Bool.xor_assoc]

theorem iterate_shift_xor (count : ℕ) (left right : BitVec width) :
    (shift divisor)^[count] (left ^^^ right) =
      (shift divisor)^[count] left ^^^ (shift divisor)^[count] right := by
  induction count generalizing left right with
  | zero => rfl
  | succ count ih =>
    rw [Function.iterate_succ_apply, shift_xor, ih]
    rfl

/-- The highest place after a step shows what fell out, so the step can be undone. -/
theorem shift_injective (hdivisor : divisor.getLsbD (width - 1) = true) :
    Function.Injective (shift divisor) := by
  have hwidth : 0 < width := by
    have hinside := BitVec.lt_of_getLsbD hdivisor
    omega
  intro left right heq
  have hplaces : ∀ index, ((left.getLsbD 0 && divisor.getLsbD index) ^^ left.getLsbD (1 + index)) =
      ((right.getLsbD 0 && divisor.getLsbD index) ^^ right.getLsbD (1 + index)) := by
    intro index
    rw [← getLsbD_shift, heq, getLsbD_shift]
  have hlowest : left.getLsbD 0 = right.getLsbD 0 := by
    have hhighest := hplaces (width - 1)
    rw [hdivisor, BitVec.getLsbD_of_ge left (1 + (width - 1)) (by omega),
      BitVec.getLsbD_of_ge right (1 + (width - 1)) (by omega)] at hhighest
    simpa using hhighest
  apply BitVec.eq_of_getLsbD_eq
  intro index _
  cases index with
  | zero => exact hlowest
  | succ index =>
    have hplace := hplaces index
    rw [hlowest, Bool.xor_right_inj] at hplace
    rwa [Nat.add_comm] at hplace

/-- While only zeros fall out, the register just moves. -/
theorem iterate_shift_of_clear {count : ℕ} {register : BitVec width}
    (hclear : ∀ index < count, register.getLsbD index = false) :
    (shift divisor)^[count] register = register >>> count := by
  induction count generalizing register with
  | zero => simp
  | succ count ih =>
    have hlowest : register.getLsbD 0 = false := hclear 0 (Nat.succ_pos _)
    have hstep : shift divisor register = register >>> 1 := by
      rw [shift, if_neg (by rw [hlowest]; decide)]
    have hrest : ∀ index < count, (register >>> 1).getLsbD index = false := by
      intro index hindex
      rw [BitVec.getLsbD_ushiftRight]
      exact hclear _ (by omega)
    rw [Function.iterate_succ_apply, hstep, ih hrest, ← BitVec.shiftRight_add, Nat.add_comm]

/-- The places that do not fall out take part in nothing but the move. -/
theorem iterate_shift_split {count : ℕ} {mask : BitVec width}
    (hmask : ∀ index < width, mask.getLsbD index = decide (index < count))
    (register : BitVec width) :
    (shift divisor)^[count] register =
      (shift divisor)^[count] (register &&& mask) ^^^ (register >>> count) := by
  have hparts : register = (register &&& mask) ^^^ (register &&& ~~~mask) := by
    apply BitVec.eq_of_getLsbD_eq
    intro index hindex
    simp only [BitVec.getLsbD_xor, BitVec.getLsbD_and, BitVec.getLsbD_not, hindex, decide_true,
      Bool.true_and]
    cases register.getLsbD index <;> cases mask.getLsbD index <;> rfl
  have hclear : ∀ index < count, (register &&& ~~~mask).getLsbD index = false := by
    intro index hindex
    by_cases hinside : index < width
    · simp [hinside, hmask index hinside, hindex]
    · exact BitVec.getLsbD_of_ge _ _ (not_lt.mp hinside)
  have hmoved : (register &&& ~~~mask) >>> count = register >>> count := by
    apply BitVec.eq_of_getLsbD_eq
    intro index _
    rw [BitVec.getLsbD_ushiftRight, BitVec.getLsbD_ushiftRight]
    by_cases hinside : count + index < width
    · rw [BitVec.getLsbD_and, BitVec.getLsbD_not, hmask _ hinside]
      simp [hinside]
    · rw [BitVec.getLsbD_of_ge _ _ (not_lt.mp hinside),
        BitVec.getLsbD_of_ge _ _ (not_lt.mp hinside)]
  nth_rewrite 1 [hparts]
  rw [iterate_shift_xor, iterate_shift_of_clear hclear, hmoved]

/-- Adding a bit when it is needed or in its place before the steps is the same. -/
theorem shift_xor_eq_feed (register value : BitVec width) :
    shift divisor (register ^^^ value) =
      feed divisor register (value.getLsbD 0) ^^^ (value >>> 1) := by
  apply BitVec.eq_of_getLsbD_eq
  intro index hindex
  have hlowest : ((BitVec.ofBool (value.getLsbD 0)).setWidth width).getLsbD 0 =
      value.getLsbD 0 := by
    cases value.getLsbD 0 <;> simp [show 0 < width by omega]
  have hothers : ((BitVec.ofBool (value.getLsbD 0)).setWidth width).getLsbD (1 + index) =
      false := by
    rw [BitVec.getLsbD_setWidth, BitVec.getLsbD_of_ge _ _ (by omega), Bool.and_false]
  rw [feed, BitVec.getLsbD_xor, getLsbD_shift, getLsbD_shift, BitVec.getLsbD_xor,
    BitVec.getLsbD_xor, BitVec.getLsbD_xor, BitVec.getLsbD_xor, hlowest, hothers,
    BitVec.getLsbD_ushiftRight, Bool.xor_false]
  ac_rfl

/-- Feeding a value bit by bit is adding it at once and moving by as many places. -/
theorem feedBits_eq (count : ℕ) {value : BitVec width} (hvalue : value >>> count = 0)
    (register : BitVec width) :
    feedBits divisor count value register = (shift divisor)^[count] (register ^^^ value) := by
  induction count generalizing value register with
  | zero =>
    rw [BitVec.ushiftRight_zero] at hvalue
    have hsame : register ^^^ value = register := by
      rw [hvalue]
      exact BitVec.xor_zero
    rw [hsame]
    rfl
  | succ count ih =>
    have hrest : (value >>> 1) >>> count = 0 := by
      rw [← BitVec.shiftRight_add, Nat.add_comm, hvalue]
    rw [feedBits, ih hrest, Function.iterate_succ_apply, shift_xor_eq_feed]

end SwitchFailover.Library.ShiftRegister
