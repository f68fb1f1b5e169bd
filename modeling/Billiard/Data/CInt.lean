import Mathlib.Algebra.Group.Nat.Defs

/-! The C type `int`, counted up and down by one: an increment leads to the next number
except from the largest one, and a decrement to the one before except from the least. -/

namespace CInt

variable {count : Int32}

theorem toInt_succ (below : count ≠ Int32.maxValue) : (count + 1).toInt = count.toInt + 1 := by
  have least := count.le_toInt
  have most := count.toInt_lt
  have apart : count.toInt ≠ 2 ^ 31 - 1 := fun same => below (Int32.toInt_inj.mp same)
  rw [Int32.toInt_add, Int32.toInt_one]
  exact Int.bmod_eq_of_le (by omega) (by omega)

theorem toInt_pred (above : count ≠ Int32.minValue) : (count - 1).toInt = count.toInt - 1 := by
  have least := count.le_toInt
  have most := count.toInt_lt
  have apart : count.toInt ≠ -2 ^ 31 := fun same => above (Int32.toInt_inj.mp same)
  rw [Int32.toInt_sub, Int32.toInt_one]
  exact Int.bmod_eq_of_le (by omega) (by omega)

theorem ne_minValue (positive : 0 < count.toInt) : count ≠ Int32.minValue := by
  rintro rfl
  exact absurd positive (by decide)

theorem ne_maxValue (small : count.toInt ≤ 0) : count ≠ Int32.maxValue := by
  rintro rfl
  exact absurd small (by decide)

theorem ne_maxValue_of_succ (counted : (count + 1).toInt = count.toInt + 1) :
    count ≠ Int32.maxValue := by
  rintro rfl
  exact absurd counted (by decide)

theorem pos_iff : 0 < count ↔ 0 < count.toInt := Int32.lt_iff_toInt_lt

theorem one_lt_iff : 1 < count ↔ 1 < count.toInt := Int32.lt_iff_toInt_lt

theorem eq_one_iff : count = 1 ↔ count.toInt = 1 := Int32.toInt_inj.symm

/-- However often it is increased, the value has no more than 31 bits. -/
theorem toInt_ne_of_le {number : Nat} (large : 2 ^ 31 ≤ number) : count.toInt ≠ number := by
  have most := count.toInt_lt
  omega

end CInt
