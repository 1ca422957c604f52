import Mathlib.Algebra.Order.Floor.Ring
import Mathlib.Data.Rat.Floor
import Mathlib.Order.Monotone.Basic
import Mathlib.Tactic.Linarith

/-!
# Floating-point values as rationals under a rounding

A finite `double` is a rational number. An arithmetic operation is the exact one
followed by a rounding, of which only what every IEEE 754 rounding of binary64
satisfies is kept: it is monotone and leaves alone what binary64 represents, of which
the natural numbers up to `2 ^ 53` over a power of two are enough here.
`Rounding.exact` is the idealised arithmetic without rounding.
-/

namespace FloatingPoint

inductive Double
  | finite (value : ℚ)
  | infinite (negative : Bool)
  | nan
deriving DecidableEq

namespace Double

def isfinite : Double → Bool
  | .finite _ => true
  | _ => false

/-- The value of a finite double; the code reads it only behind `isfinite`. -/
def value : Double → ℚ
  | .finite q => q
  | _ => 0

end Double

structure Rounding where
  round : ℚ → ℚ
  mono : Monotone round
  round_dyadic : ∀ n k : ℕ, n ≤ 2 ^ 53 → k ≤ 1000 → round (n / 2 ^ k) = n / 2 ^ k

namespace Rounding

def exact : Rounding where
  round q := q
  mono := monotone_id
  round_dyadic _ _ _ _ := rfl

def mul (fl : Rounding) (x y : ℚ) : ℚ := fl.round (x * y)

def div (fl : Rounding) (x y : ℚ) : ℚ := fl.round (x / y)

theorem round_natCast (fl : Rounding) (n : ℕ) (hn : n ≤ 2 ^ 53) : fl.round n = n := by
  have h := fl.round_dyadic n 0 hn (by omega)
  simpa only [pow_zero, div_one] using h

theorem natCast_le_round (fl : Rounding) {n : ℕ} {q : ℚ} (hn : n ≤ 2 ^ 53) (h : (n : ℚ) ≤ q) :
    (n : ℚ) ≤ fl.round q := by
  rw [← fl.round_natCast n hn]
  exact fl.mono h

theorem round_le_natCast (fl : Rounding) {n : ℕ} {q : ℚ} (hn : n ≤ 2 ^ 53) (h : q ≤ (n : ℚ)) :
    fl.round q ≤ n := by
  rw [← fl.round_natCast n hn]
  exact fl.mono h

theorem half_lt_of_one_le_round (fl : Rounding) {q : ℚ} (h : 1 ≤ fl.round q) : 1 / 2 < q := by
  by_contra hq
  have hhalf := fl.round_dyadic 1 1 (by norm_num) (by omega)
  have hle := fl.mono (not_lt.mp hq)
  norm_num at hhalf hle
  linarith

theorem lt_natCast_of_round_lt (fl : Rounding) {n : ℕ} {q : ℚ} (hn : n ≤ 2 ^ 53)
    (h : fl.round q < n) : q < n := by
  by_contra hq
  exact absurd (fl.natCast_le_round hn (not_lt.mp hq)) (not_le.mpr h)

end Rounding

/-- `std::llround`: to the nearest integer, halves away from zero. -/
def llround (q : ℚ) : ℤ := if 0 ≤ q then ⌊q + 1 / 2⌋ else -⌊-q + 1 / 2⌋

theorem le_llround {n : ℕ} {q : ℚ} (h : (n : ℚ) ≤ q) : (n : ℤ) ≤ llround q := by
  have hn : (0 : ℚ) ≤ n := Nat.cast_nonneg n
  rw [llround, if_pos (hn.trans h), Int.le_floor]
  push_cast
  linarith

theorem llround_le {n : ℕ} {q : ℚ} (h : q ≤ (n : ℚ)) : llround q ≤ n := by
  rw [llround]
  split_ifs with hq
  · have hlt : q + 1 / 2 < ((n + 1 : ℤ) : ℚ) := by
      push_cast
      linarith
    exact Int.lt_add_one_iff.mp (Int.floor_lt.mpr hlt)
  · have hfloor : 0 ≤ ⌊-q + 1 / 2⌋ := Int.floor_nonneg.mpr (by linarith)
    omega

/-- Rounding moves a value by a half at most. -/
theorem abs_llround_sub_le (q : ℚ) : |(llround q : ℚ) - q| ≤ 1 / 2 := by
  rw [abs_le, llround]
  split_ifs with hq
  · have hle := Int.floor_le (q + 1 / 2)
    have hlt := Int.lt_floor_add_one (q + 1 / 2)
    constructor <;> linarith
  · have hle := Int.floor_le (-q + 1 / 2)
    have hlt := Int.lt_floor_add_one (-q + 1 / 2)
    push_cast
    constructor <;> linarith

theorem llround_natCast (n : ℕ) : llround n = n :=
  le_antisymm (llround_le le_rfl) (le_llround le_rfl)

theorem emod_toNat_mod (z : ℤ) {m : ℕ} (hm : 0 < m) : (((z % m).toNat % m : ℕ) : ℤ) = z % m := by
  have hnonneg := Int.emod_nonneg z (show (m : ℤ) ≠ 0 by omega)
  have hlt := Int.emod_lt_of_pos z (show 0 < (m : ℤ) by omega)
  rw [Nat.mod_eq_of_lt (by omega), Int.toNat_of_nonneg hnonneg]

theorem uint32_ofInt_toNat (z : ℤ) : ((UInt32.ofInt z).toNat : ℤ) = z % 2 ^ 32 := by
  unfold UInt32.ofInt
  rw [UInt32.toNat_ofNat']
  exact emod_toNat_mod z (by norm_num)

theorem uint64_ofInt_toNat (z : ℤ) : ((UInt64.ofInt z).toNat : ℤ) = z % 2 ^ 64 := by
  unfold UInt64.ofInt
  rw [UInt64.toNat_ofNat']
  exact emod_toNat_mod z (by norm_num)

end FloatingPoint
