/-! `size_t` arithmetic on a 64-bit target. -/

set_option autoImplicit false

namespace AgencC.Library

/-- `SIZE_MAX`. -/
def sizeMax : Nat := 0xffffffffffffffff

def sizeAdd (a b : Nat) : Nat := (a + b) % (sizeMax + 1)

def sizeSub (a b : Nat) : Nat := (a + (sizeMax + 1) - b) % (sizeMax + 1)

def sizeMul (a b : Nat) : Nat := (a * b) % (sizeMax + 1)

theorem sizeAdd_of_le {a b : Nat} (fits : a + b ≤ sizeMax) : sizeAdd a b = a + b :=
  Nat.mod_eq_of_lt (Nat.lt_succ_of_le fits)

theorem sizeSub_of_le {a b : Nat} (le : b ≤ a) (fits : a ≤ sizeMax) : sizeSub a b = a - b := by
  unfold sizeSub
  have split : a + (sizeMax + 1) - b = (a - b) + (sizeMax + 1) := by omega
  rw [split, Nat.add_mod_right, Nat.mod_eq_of_lt (by omega)]

theorem sizeMul_of_le {a b : Nat} (fits : a * b ≤ sizeMax) : sizeMul a b = a * b :=
  Nat.mod_eq_of_lt (Nat.lt_succ_of_le fits)

end AgencC.Library
