import Mathlib.Algebra.Order.Ring.Unbundled.Rat
import Mathlib.Data.Rat.Defs
import Mathlib.Order.Lattice

/-! # Numbers the scheduler computes with

Weights and work units arrive as `f64` and enter the scheduler only through the
saturating cast `as i64`. Finite floats are kept as the rationals they denote;
rounding of arithmetic on them is not modelled.
-/

namespace TinyLlb

/-- An `f64` value: a finite one is the rational it denotes. -/
inductive F64 where
  | nan
  | negInf
  | posInf
  | fin (value : ℚ)
  deriving DecidableEq

def i64Min : Int := -9223372036854775808

def i64Max : Int := 9223372036854775807

namespace F64

/-- The cast `x as i64`: truncation toward zero, saturating at both ends, and 0
    for a NaN. -/
def asI64 : F64 → Int
  | nan => 0
  | negInf => i64Min
  | posInf => i64Max
  | fin q => max i64Min (min i64Max (q.num.tdiv q.den))

/-- The comparison `x <= bound`, false for a NaN. -/
def isLe (bound : ℚ) : F64 → Bool
  | nan => false
  | negInf => true
  | posInf => false
  | fin q => decide (q ≤ bound)

/-- The exact value of a finite float. -/
def toRat : F64 → ℚ
  | fin q => q
  | _ => 0

theorem asI64_natCast (n : ℕ) : asI64 (.fin n) = min i64Max n := by
  have whole : (n : ℚ).num.tdiv (n : ℚ).den = n := Int.tdiv_one _
  simp only [asI64, whole, i64Min, i64Max]
  omega

theorem asI64_of_lt_one {q : ℚ} (nonneg : 0 ≤ q) (small : q < 1) : asI64 (.fin q) = 0 := by
  have cut : q.num.tdiv q.den = 0 := by
    apply Int.tdiv_eq_zero_of_lt
    · exact Rat.num_nonneg.mpr nonneg
    · exact Rat.num_lt_denom_iff.mpr small
  simp only [asI64, cut, i64Min, i64Max]
  omega

end F64

/-- What an `i64` addition or subtraction leaves in its cell: the release build
    wraps. The other reading keeps the exact integer, which is the same cell as
    long as nothing overflows. -/
inductive I64Arith where
  | exact
  | wrapping
  deriving DecidableEq

def I64Arith.store : I64Arith → Int → Int
  | .exact, n => n
  | .wrapping, n => n.bmod 18446744073709551616

def InI64 (n : Int) : Prop := i64Min ≤ n ∧ n ≤ i64Max

instance (n : Int) : Decidable (InI64 n) := inferInstanceAs (Decidable (_ ∧ _))

/-- An `i64` value. -/
abbrev I64 := { n : Int // InI64 n }

theorem F64.asI64_inI64 (x : F64) : InI64 x.asI64 := by
  cases x with
  | nan => decide
  | negInf => decide
  | posInf => decide
  | fin q =>
      simp only [InI64, F64.asI64, i64Min, i64Max]
      omega

namespace I64Arith

/-- Reducing early does not change what a sum is stored as. -/
theorem store_store_add (arith : I64Arith) (a b : Int) :
    arith.store (arith.store a + b) = arith.store (a + b) := by
  cases arith with
  | exact => rfl
  | wrapping => exact Int.bmod_add_bmod

theorem store_store (arith : I64Arith) (a : Int) : arith.store (arith.store a) = arith.store a := by
  simpa using arith.store_store_add a 0

theorem store_of_inI64 (arith : I64Arith) {n : Int} (fits : InI64 n) : arith.store n = n := by
  cases arith with
  | exact => rfl
  | wrapping =>
      obtain ⟨low, high⟩ := fits
      unfold i64Min at low
      unfold i64Max at high
      apply Int.bmod_eq_of_le <;> omega

/-- The number is one that the cell can hold. -/
def Fits : I64Arith → Int → Prop
  | .exact, _ => True
  | .wrapping, n => InI64 n

theorem store_eq_self_iff (arith : I64Arith) {n : Int} : arith.store n = n ↔ arith.Fits n := by
  cases arith with
  | exact => simp [store, Fits]
  | wrapping =>
      refine ⟨fun same => ?_, I64Arith.wrapping.store_of_inI64⟩
      have low : -9223372036854775808 ≤ n.bmod 18446744073709551616 :=
        Int.le_bmod (by decide)
      have high : n.bmod 18446744073709551616 < 9223372036854775808 := Int.bmod_lt (by decide)
      change n.bmod 18446744073709551616 = n at same
      unfold Fits InI64 i64Min i64Max
      omega

/-- Two sums are stored alike only if they differ by a multiple of 2^64. -/
theorem eq_zero_of_store_add (arith : I64Arith) {a b : Int}
    (small : -18446744073709551616 < b ∧ b < 18446744073709551616)
    (same : arith.store (a + b) = arith.store a) : b = 0 := by
  cases arith with
  | exact =>
      change a + b = a at same
      omega
  | wrapping =>
      have zero := Int.bmod_eq_bmod_iff_bmod_sub_eq_zero.mp same
      rw [add_sub_cancel_left, ← Int.dvd_iff_bmod_eq_zero] at zero
      omega

end I64Arith

end TinyLlb
