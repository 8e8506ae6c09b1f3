import Mathlib.Logic.Function.Iterate
import DoorBus.Wire.Checksum

/-!
# The Check Register

What a bit time does to the register of the check. Written as a polynomial of
degree below sixteen, with the highest power in the lowest bit, the register is
multiplied by x and reduced by the generator. This module has the three facts
about that map which decide what corruptions the check sees, and none of them
speaks of polynomials.

The map is linear over exclusive or, so a corruption acts on the register by
itself, whatever was sent. It is injective, because the generator has a constant
term: once the register has gone wrong, it never comes right by mere waiting.
And it keeps the parity of the register, because the generator is a multiple of
x + 1.

The powers of x come back to one only after as many bit times as the generator
has order. That is 32767, but a frame has no more than 2072 bits, so it is
enough to follow the register for that long.

## Main definitions

* `bit`: A bit of the register.
* `parity`: Parity of the first few bits.
* `avoidsOne`: The register does not come to be one for some time.

## Theorems

* `shift_eq`: A bit time without a case split.
* `iterate_shift_xor`, `run_xor`: Bit times and bytes are linear.
* `iterate_shift_injective`: A difference does not vanish by itself.
* `parity_shift`: A bit time keeps the parity.
* `toNat_iterate_shift`: Clear low bits are only moved out.
* `iterate_shift_one_ne`: The register does not come back within a frame.
-/

namespace DoorBus

namespace Checksum

/-- A bit of the register, the lowest one first. -/
def bit (register : UInt16) (index : Nat) : Bool :=
  register.toNat.testBit index

theorem eq_of_bit {a b : UInt16} (h : ∀ index, bit a index = bit b index) : a = b :=
  UInt16.toNat.inj (Nat.eq_of_testBit_eq h)

theorem bit_zero (index : Nat) : bit 0 index = false :=
  Nat.zero_testBit index

theorem bit_xor (a b : UInt16) (index : Nat) :
    bit (a ^^^ b) index = (bit a index ^^ bit b index) := by
  rw [bit, UInt16.toNat_xor, Nat.testBit_xor, bit, bit]

theorem bit_shiftRight_one (register : UInt16) (index : Nat) :
    bit (register >>> 1) index = bit register (index + 1) := by
  -- As a number the shift is one of natural numbers, with no width to run over.
  have hone : (register >>> 1).toNat = register.toNat >>> 1 := by
    rw [UInt16.toNat_shiftRight]
    rfl
  rw [bit, hone, Nat.testBit_shiftRight, bit, Nat.add_comm]

/-- There are sixteen bits, and all above them are clear. -/
theorem bit_of_ge (register : UInt16) {index : Nat} (h : 16 ≤ index) :
    bit register index = false := by
  have hword : register.toNat < 2 ^ 16 := register.toNat_lt
  exact Nat.testBit_lt_two_pow
    (Nat.lt_of_lt_of_le hword (Nat.pow_le_pow_right (by omega) h))

/-! ## One bit time -/

/-- The mask looks at the lowest bit. -/
theorem and_one_eq_one_iff (register : UInt16) : register &&& 1 = 1 ↔ bit register 0 = true := by
  have hlow : (register &&& 1).toNat = register.toNat % 2 := by
    rw [UInt16.toNat_and]
    exact Nat.and_one_is_mod register.toNat
  have hone : (1 : UInt16).toNat = 1 := rfl
  rw [← UInt16.toNat_inj, hlow, hone, bit, Nat.testBit_zero, decide_eq_true_eq]

/-- The register moves down, and what leaves it comes back as the generator. -/
theorem shift_eq (register : UInt16) :
    shift register = register >>> 1 ^^^ (if bit register 0 then generator else 0) := by
  unfold shift
  -- The mask singles out the lowest bit, which is the one that leaves.
  by_cases hlow : bit register 0 = true
  · rw [if_pos ((and_one_eq_one_iff register).mpr hlow), if_pos hlow]
  · rw [if_neg (fun h => hlow ((and_one_eq_one_iff register).mp h)), if_neg hlow, UInt16.xor_zero]

theorem shift_xor (a b : UInt16) : shift (a ^^^ b) = shift a ^^^ shift b := by
  rw [shift_eq, shift_eq, shift_eq, UInt16.shiftRight_xor, bit_xor]
  -- Both sides move down alike, so only the generators that come back are compared.
  have hback : (if bit a 0 ^^ bit b 0 then generator else 0)
      = (if bit a 0 then generator else 0) ^^^ (if bit b 0 then generator else 0) := by
    cases bit a 0 <;> cases bit b 0 <;> rfl
  rw [hback]
  ac_rfl

theorem shift_zero : shift 0 = 0 := rfl

/-- Only the empty register is emptied by a bit time, since the generator fills
    the highest bit. -/
theorem eq_zero_of_shift {register : UInt16} (h : shift register = 0) : register = 0 := by
  rw [shift_eq] at h
  have hbits : ∀ index, (bit register (index + 1) ^^
      bit (if bit register 0 then generator else 0) index) = false := by
    intro index
    rw [← bit_shiftRight_one, ← bit_xor, h]
    exact bit_zero index
  -- The highest bit can only come from the generator, so nothing has left at the low end.
  have hlow : bit register 0 = false := by
    have htop := hbits 15
    rw [bit_of_ge register (Nat.le_refl 16), Bool.false_xor] at htop
    by_contra hset
    rw [Bool.not_eq_false] at hset
    rw [if_pos hset] at htop
    exact absurd htop (by decide)
  refine eq_of_bit fun index => ?_
  rw [bit_zero]
  -- With nothing come back, every other bit has only moved to the one below it.
  cases index with
  | zero => exact hlow
  | succ index =>
      have hbit := hbits index
      rw [hlow] at hbit
      simpa only [Bool.false_eq_true, if_false, bit_zero, Bool.xor_false] using hbit

theorem shift_injective : Function.Injective shift := by
  intro a b h
  -- Two registers that become one have a difference that becomes nothing.
  have hdiff : shift (a ^^^ b) = 0 := by
    rw [shift_xor, h, UInt16.xor_self]
  exact UInt16.xor_eq_zero_iff.mp (eq_zero_of_shift hdiff)

/-! ## Many bit times -/

theorem iterate_shift_injective (count : Nat) : Function.Injective shift^[count] :=
  shift_injective.iterate count

theorem iterate_shift_zero (count : Nat) : shift^[count] 0 = 0 :=
  Function.iterate_fixed shift_zero count

theorem iterate_shift_ne_zero {register : UInt16} (count : Nat) (h : register ≠ 0) :
    shift^[count] register ≠ 0 := by
  intro hzero
  exact h (iterate_shift_injective count (hzero.trans (iterate_shift_zero count).symm))

/-- Many bit times are linear as each of them is. -/
theorem iterate_shift_xor (count : Nat) (a b : UInt16) :
    shift^[count] (a ^^^ b) = shift^[count] a ^^^ shift^[count] b := by
  -- The first bit time makes other registers of the two, so this is for any two.
  induction count generalizing a b with
  | zero => rfl
  | succ count ih =>
      rw [Function.iterate_succ_apply, shift_xor, ih, Function.iterate_succ_apply,
        Function.iterate_succ_apply]

/-- As long as only clear bits leave, the register does nothing but move. -/
theorem toNat_iterate_shift {register : UInt16} (count : Nat)
    (h : ∀ index, index < count → bit register index = false) :
    (shift^[count] register).toNat = register.toNat >>> count := by
  induction count with
  | zero => rfl
  | succ count ih =>
      have hmoved := ih fun index hindex => h index (by omega)
      -- The bit that leaves now stood so many places above the lowest one.
      have hlow : bit (shift^[count] register) 0 = false := by
        rw [bit, hmoved, Nat.testBit_shiftRight]
        exact h count (by omega)
      rw [Function.iterate_succ_apply', shift_eq, hlow]
      simp only [Bool.false_eq_true, if_false, UInt16.xor_zero]
      rw [UInt16.toNat_shiftRight, hmoved, Nat.shiftRight_add]
      rfl

/-! ## Parity -/

/-- Parity of the first few bits of the register. -/
def parity (register : UInt16) : Nat → Bool
  | 0 => false
  | count + 1 => parity register count ^^ bit register count

theorem parity_xor (a b : UInt16) (count : Nat) :
    parity (a ^^^ b) count = (parity a count ^^ parity b count) := by
  induction count with
  | zero => rfl
  | succ count ih =>
      simp only [parity, ih, bit_xor, Bool.xor_assoc, Bool.xor_left_comm (bit a count)]

/-- A move down takes the lowest bit out of the parity, and one more in at the
    top. -/
theorem parity_shiftRight_one (register : UInt16) (count : Nat) :
    parity (register >>> 1) count = (parity register (count + 1) ^^ bit register 0) := by
  induction count with
  | zero => simp only [parity, Bool.false_xor, Bool.xor_self]
  | succ count ih =>
      -- Moving down loses the lowest bit, and reaches one bit further up.
      have hnext : parity register (count + 2)
          = (parity register (count + 1) ^^ bit register (count + 1)) := rfl
      rw [parity, ih, bit_shiftRight_one, hnext, Bool.xor_right_comm]

/-- A bit that leaves changes the parity, and so does the generator that comes
    back for it. -/
theorem parity_shift (register : UInt16) : parity (shift register) 16 = parity register 16 := by
  have hback : parity (if bit register 0 then generator else 0) 16 = bit register 0 := by
    cases bit register 0
    · rfl
    · decide
  rw [shift_eq, parity_xor, parity_shiftRight_one, hback, parity,
    bit_of_ge register (Nat.le_refl 16)]
  simp only [Bool.xor_false, Bool.xor_assoc, Bool.xor_self]

/-! ## The powers of x -/

/-- Whether the register is not one after any of the next bit times. -/
def avoidsOne : Nat → UInt16 → Bool
  | 0, _ => true
  | count + 1, register => shift register != 1 && avoidsOne count (shift register)

theorem ne_one_of_avoidsOne {count : Nat} {register : UInt16} (h : avoidsOne count register = true)
    {times : Nat} (htimes : times < count) : shift^[times + 1] register ≠ 1 := by
  induction count generalizing register times with
  | zero => omega
  | succ count ih =>
      rw [avoidsOne, Bool.and_eq_true, bne_iff_ne] at h
      cases times with
      | zero => exact h.1
      | succ times =>
          -- Later on it is the register after this bit time that avoids one.
          rw [Function.iterate_succ_apply]
          exact ih h.2 (by omega)

/-- The kernel runs the register through all bits of the longest frame. All else
    that is known of the generator is a matter of a bit or two. -/
theorem avoidsOne_one : avoidsOne 2071 1 = true := by
  decide +kernel

/-- Within the bits of the longest frame the register does not come back to
    one. -/
theorem iterate_shift_one_ne {count : Nat} (hpos : 0 < count) (hle : count < 2072) :
    shift^[count] 1 ≠ 1 := by
  have hne := ne_one_of_avoidsOne avoidsOne_one (show count - 1 < 2071 by omega)
  rwa [Nat.sub_add_cancel hpos] at hne

/-! ## Bytes -/

theorem absorb_eq (register : UInt16) (byte : UInt8) :
    absorb register byte = shift^[8] (register ^^^ byte.toUInt16) := rfl

/-- A byte is put on the register and goes through eight bit times, all of which
    are linear. -/
theorem absorb_xor (a b : UInt16) (x y : UInt8) :
    absorb (a ^^^ b) (x ^^^ y) = absorb a x ^^^ absorb b y := by
  rw [absorb_eq, absorb_eq, absorb_eq, ← iterate_shift_xor, UInt8.toUInt16_xor]
  congr 1
  ac_rfl

theorem run_cons (register : UInt16) (byte : UInt8) (rest : List UInt8) :
    run register (byte :: rest) = run (absorb register byte) rest := rfl

/-- Two runs of bytes of one length, laid over each other. -/
theorem run_xor (a b : UInt16) (xs ys : List UInt8) (h : xs.length = ys.length) :
    run (a ^^^ b) (List.zipWith (· ^^^ ·) xs ys) = run a xs ^^^ run b ys := by
  -- Each byte leaves two other registers to the rest.
  induction xs generalizing a b ys with
  | nil =>
      rw [List.length_nil, eq_comm, List.length_eq_zero_iff] at h
      rw [h]
      rfl
  | cons x xs ih =>
      cases ys with
      | nil => exact absurd h (by simp only [List.length_cons, List.length_nil]; omega)
      | cons y ys =>
          simp only [List.length_cons, Nat.add_right_cancel_iff] at h
          rw [List.zipWith_cons_cons, run_cons, absorb_xor, ih _ _ ys h, run_cons, run_cons]

end Checksum

end DoorBus
