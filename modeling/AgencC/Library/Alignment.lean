import AgencC.Library.SizeT
import Mathlib.Algebra.Group.Nat.Defs

/-! Alignment of addresses, and the bit operations that compute it in `size_t`. -/

set_option autoImplicit false

namespace AgencC.Library

/-- Bytes from `x` up to the next multiple of `align`. -/
def padding (x align : Nat) : Nat := (align - x % align) % align

theorem padding_lt {x align : Nat} (pos : 0 < align) : padding x align < align :=
  Nat.mod_lt _ pos

theorem dvd_add_padding {x align : Nat} (pos : 0 < align) : align ∣ x + padding x align := by
  have below : x % align < align := Nat.mod_lt _ pos
  have split : align * (x / align) + x % align = x := Nat.div_add_mod x align
  have sum : x + (align - x % align) = align * (x / align + 1) := by
    rw [Nat.mul_add, Nat.mul_one]
    omega
  refine Nat.dvd_of_mod_eq_zero ?_
  rw [padding, Nat.add_mod_mod, sum, Nat.mul_mod_right]

theorem padding_eq_zero_iff {x align : Nat} (pos : 0 < align) :
    padding x align = 0 ↔ align ∣ x := by
  constructor
  · intro none
    have aligned := dvd_add_padding (x := x) pos
    rwa [none, Nat.add_zero] at aligned
  · intro aligned
    rw [padding, Nat.mod_eq_zero_of_dvd aligned, Nat.sub_zero, Nat.mod_self]

/-- `-(uintptr_t)x`. -/
def sizeNeg (x : Nat) : Nat := sizeSub 0 x

/-- `~x`. -/
def sizeNot (x : Nat) : Nat := sizeMax - x

/-- The negated address masked by `align - 1` is the padding. -/
theorem sizeNeg_and {x k : Nat} (word : x ≤ sizeMax) (small : k ≤ 64) :
    sizeNeg x &&& (2 ^ k - 1) = padding x (2 ^ k) := by
  have space : sizeMax + 1 = 2 ^ 64 := by decide
  have divides : 2 ^ k ∣ sizeMax + 1 := by
    rw [space]
    exact Nat.pow_dvd_pow 2 small
  have pos : 0 < 2 ^ k := Nat.two_pow_pos k
  rw [Nat.and_two_pow_sub_one_eq_mod, sizeNeg, sizeSub, Nat.zero_add, Nat.mod_mod_of_dvd _ divides,
    padding]
  -- Both sides are what is missing from `x` to a multiple of `2 ^ k`.
  obtain ⟨count, total⟩ := divides
  have split : x = 2 ^ k * (x / 2 ^ k) + x % 2 ^ k := (Nat.div_add_mod x (2 ^ k)).symm
  have below : x % 2 ^ k < 2 ^ k := Nat.mod_lt _ pos
  have fewer : x / 2 ^ k < count := by
    refine Nat.div_lt_of_lt_mul ?_
    omega
  obtain ⟨rest, counted⟩ := Nat.exists_eq_add_of_lt fewer
  have expand : 2 ^ k * count = 2 ^ k * (x / 2 ^ k) + 2 ^ k * rest + 2 ^ k := by
    rw [counted, Nat.mul_add, Nat.mul_add, Nat.mul_one]
  have distance : sizeMax + 1 - x = 2 ^ k - x % 2 ^ k + 2 ^ k * rest := by omega
  rw [distance, Nat.add_mul_mod_self_left]

/-- No bit at or above `bits` is set. -/
theorem and_sizeNot_mask_eq_zero_iff {x bits : Nat} (word : x ≤ sizeMax) (small : bits ≤ 64) :
    x &&& sizeNot (2 ^ bits - 1) = 0 ↔ x < 2 ^ bits := by
  have space : sizeMax = 2 ^ 64 - 1 := by decide
  have mask (i : Nat) : (sizeNot (2 ^ bits - 1)).testBit i = (decide (i < 64) && !decide (i < bits)) := by
    have smaller : 2 ^ bits - 1 < 2 ^ 64 := by
      have le := Nat.pow_le_pow_right (n := 2) (by decide) small
      have pos := Nat.two_pow_pos bits
      omega
    have shape : sizeNot (2 ^ bits - 1) = 2 ^ 64 - ((2 ^ bits - 1) + 1) := by
      rw [sizeNot, space]
      omega
    rw [shape, Nat.testBit_two_pow_sub_succ smaller, Nat.testBit_two_pow_sub_one]
  constructor
  · intro clear
    refine Nat.lt_of_not_le fun large => ?_
    obtain ⟨i, above, set⟩ := Nat.exists_ge_and_testBit_of_ge_two_pow large
    have inside : i < 64 := by
      refine Nat.lt_of_not_le fun beyond => ?_
      have exceeds := Nat.ge_two_pow_of_testBit set
      have grows := Nat.pow_le_pow_right (n := 2) (by decide) beyond
      have total := Nat.two_pow_pos 64
      omega
    have bit : (x &&& sizeNot (2 ^ bits - 1)).testBit i = true := by
      rw [Nat.testBit_and, set, mask]
      simp [inside, Nat.not_lt.mpr above]
    rw [clear, Nat.zero_testBit] at bit
    cases bit
  · intro below
    refine Nat.eq_of_testBit_eq fun i => ?_
    rw [Nat.testBit_and, mask, Nat.zero_testBit]
    by_cases low : i < bits
    · simp [low]
    · have clear : x.testBit i = false := by
        refine Nat.testBit_lt_two_pow (Nat.lt_of_lt_of_le below ?_)
        exact Nat.pow_le_pow_right (by decide) (Nat.not_lt.mp low)
      rw [clear, Bool.false_and]

/-- The product guard that divides only where an operand has a bit in its upper half. -/
theorem product_guard {a b bound : Nat} (small : bound < sizeMax) (nonzero : 0 < b) :
    (((a ||| b) >>> 32 ≠ 0 ∧ bound / b < a) ∨ bound < sizeMul a b) ↔ bound < a * b := by
  have space : sizeMax + 1 = 2 ^ 64 := by decide
  have exceeds : bound / b < a ↔ bound < a * b := Nat.div_lt_iff_lt_mul nonzero
  by_cases upper : (a ||| b) >>> 32 = 0
  · have halves : a * b < sizeMax + 1 := by
      have bits : (a ||| b) < 2 ^ 32 := by
        rw [Nat.shiftRight_eq_div_pow] at upper
        exact (Nat.div_eq_zero_iff_lt (Nat.two_pow_pos 32)).mp upper
      have left : a < 2 ^ 32 := Nat.lt_of_le_of_lt Nat.left_le_or bits
      have right : b < 2 ^ 32 := Nat.lt_of_le_of_lt Nat.right_le_or bits
      calc a * b < 2 ^ 32 * 2 ^ 32 := Nat.mul_lt_mul'' left right
        _ = sizeMax + 1 := by decide
    rw [sizeMul_of_le (Nat.le_of_lt_succ halves)]
    simp [upper]
  · by_cases large : bound < a * b
    · exact iff_of_true (.inl ⟨upper, exceeds.mpr large⟩) large
    · have exactly : sizeMul a b = a * b := sizeMul_of_le (by omega)
      rw [exactly, exceeds]
      simp [large]

end AgencC.Library
