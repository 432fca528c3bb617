import Mathlib.Algebra.Order.Ring.Int
import Mathlib.Tactic.Common

namespace CTypes

/-- The integer widths of the target: `int` has 32 bits, `size_t` at least as many. -/
structure DataModel where
  sizeBits : Nat
  int_le_size : 32 ≤ sizeBits

def lp64 : DataModel := ⟨64, by omega⟩

/-- Conversion of an integer value to `size_t`, modulo the width of `size_t`. -/
def DataModel.toSize (dm : DataModel) (x : Int) : Nat := (x % 2 ^ dm.sizeBits).toNat

def toInt (x : Nat) : Int32 := Int32.ofNat x

variable {dm : DataModel}

theorem DataModel.two_pow_le : 2 ^ 32 ≤ 2 ^ dm.sizeBits :=
  Nat.pow_le_pow_right (by omega) dm.int_le_size

theorem DataModel.toSize_cast (x : Int) : (dm.toSize x : Int) = x % (2 ^ dm.sizeBits : Nat) := by
  have hw := dm.two_pow_le
  have hp : (2 : Int) ^ dm.sizeBits = (2 ^ dm.sizeBits : Nat) := by push_cast; rfl
  rw [toSize, hp, Int.toNat_of_nonneg (Int.emod_nonneg x (by omega))]

theorem DataModel.toSize_natCast {x : Nat} (h : x < 2 ^ dm.sizeBits) : dm.toSize (x : Int) = x := by
  have hc := dm.toSize_cast x
  rw [Int.emod_eq_of_lt (by omega) (by omega)] at hc
  exact_mod_cast hc

theorem DataModel.toSize_of_nonneg {x : Int} (h0 : 0 ≤ x) (h : x < 2 ^ 32) :
    dm.toSize x = x.toNat := by
  have hw := dm.two_pow_le
  obtain ⟨n, rfl⟩ := Int.eq_ofNat_of_zero_le h0
  exact dm.toSize_natCast (by omega)

theorem DataModel.toSize_of_neg {x : Int} (h : x < 0) (hx : -2 ^ 31 ≤ x) :
    2 ^ 31 ≤ dm.toSize x := by
  have hw := dm.two_pow_le
  have hc := dm.toSize_cast x
  rw [← Int.add_emod_right, Int.emod_eq_of_lt (by omega) (by omega)] at hc
  omega

theorem toInt_toInt_of_lt {x : Nat} (h : x < 2 ^ 31) : (toInt x).toInt = x :=
  Int32.toInt_ofNat_of_lt h

theorem DataModel.toSize_toInt {x : Nat} (h : x < 2 ^ 31) : dm.toSize (toInt x).toInt = x := by
  have hw := dm.two_pow_le
  rw [toInt_toInt_of_lt h, dm.toSize_natCast (by omega)]

theorem toInt_toSize (v : Int32) : toInt (dm.toSize v.toInt) = v := by
  apply Int32.toInt_inj.mp
  have hd : (Int32.size : Int) ∣ (2 ^ dm.sizeBits : Nat) :=
    Int.natCast_dvd_natCast.mpr (pow_dvd_pow 2 dm.int_le_size)
  have hlo := v.le_toInt
  have hhi := v.toInt_lt
  calc (toInt (dm.toSize v.toInt)).toInt
      = (v.toInt % (2 ^ dm.sizeBits : Nat) % (Int32.size : Int)).bmod Int32.size := by
        rw [toInt, Int32.toInt_ofNat', dm.toSize_cast, Int.emod_bmod]
    _ = v.toInt.bmod Int32.size := by rw [Int.emod_emod_of_dvd v.toInt hd, Int.emod_bmod]
    _ = v.toInt :=
      Int.bmod_eq_of_le_mul_two (by simp [Int32.size]; omega) (by simp [Int32.size]; omega)

end CTypes
