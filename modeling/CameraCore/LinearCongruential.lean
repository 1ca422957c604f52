import Mathlib.Algebra.BigOperators.Fin
import Mathlib.Algebra.Order.BigOperators.Group.Finset
import Mathlib.Algebra.Order.BigOperators.Ring.Finset
import Mathlib.Algebra.Order.Ring.Int
import Mathlib.Data.Int.ModEq
import Mathlib.Logic.Function.Iterate
import Mathlib.RingTheory.Coprime.Lemmas
import Mathlib.Tactic.LinearCombination

/-!
# Truncated linear congruential generators

A generator steps its state by `s ↦ a * s + c` modulo `M` and shows the quotient of the
state by `B` only. The difference of two runs is multiplied by `a` modulo `M` at each step,
and stays below `B` as long as the outputs agree.

A `Certificate` is a set of short integer relations between the powers of `a` modulo `M`.
Applied to small numbers a short relation holds over the integers, and enough of them
leave only zero, so runs from different states are told apart by their first outputs.
-/

namespace LinearCongruential

section Relations

variable {M a B : ℤ} {x : ℕ → ℤ} {n : ℕ}

theorem modEq_pow (h : ∀ k, x (k + 1) ≡ a * x k [ZMOD M]) (k : ℕ) :
    x k ≡ x 0 * a ^ k [ZMOD M] := by
  induction k with
  | zero => rw [pow_zero, mul_one]
  | succ k ih =>
      calc x (k + 1) ≡ a * x k [ZMOD M] := h k
        _ ≡ a * (x 0 * a ^ k) [ZMOD M] := ih.mul_left a
        _ = x 0 * a ^ (k + 1) := by rw [pow_succ]; ac_rfl

/-- A relation between the powers of `a` holds of every sequence that `a` multiplies. -/
theorem dvd_sum (h : ∀ k, x (k + 1) ≡ a * x k [ZMOD M]) {w : Fin n → ℤ}
    (hw : M ∣ ∑ k, w k * a ^ k.val) : M ∣ ∑ k, w k * x k := by
  have hterm : ∀ k : Fin n, M ∣ w k * x k - x 0 * (w k * a ^ k.val) := by
    intro k
    obtain ⟨q, hq⟩ := (modEq_pow h k.val).symm.dvd
    exact ⟨w k * q, by linear_combination w k * hq⟩
  have hsplit : ∑ k, w k * x k =
      ∑ k, (w k * x k - x 0 * (w k * a ^ k.val)) + x 0 * ∑ k, w k * a ^ k.val := by
    rw [Finset.mul_sum, ← Finset.sum_add_distrib]
    simp only [sub_add_cancel]
  rw [hsplit]
  exact dvd_add (Finset.dvd_sum fun k _ => hterm k) (Dvd.dvd.mul_left hw _)

theorem abs_sum_lt (hM : 0 < M) {w : Fin n → ℤ} (hx : ∀ k : Fin n, |x k| < B)
    (hw : (∑ k, |w k|) * B ≤ M) : |∑ k, w k * x k| < M := by
  have hterm : ∀ k : Fin n, |w k * x k| ≤ |w k| * (B - 1) := by
    intro k
    have hk := hx k
    rw [abs_mul]
    exact mul_le_mul_of_nonneg_left (by omega) (abs_nonneg _)
  have hsum : |∑ k, w k * x k| ≤ (∑ k, |w k|) * (B - 1) := by
    rw [Finset.sum_mul]
    exact (Finset.abs_sum_le_sum_abs _ _).trans (Finset.sum_le_sum fun k _ => hterm k)
  have hpos : 0 ≤ ∑ k, |w k| := Finset.sum_nonneg fun k _ => abs_nonneg _
  rcases hpos.lt_or_eq with hpos | hzero
  · have hexpand : (∑ k, |w k|) * (B - 1) = (∑ k, |w k|) * B - ∑ k, |w k| := by ring
    omega
  · rw [← hzero, zero_mul] at hsum
    omega

end Relations

/-- Relations of powers of `a` modulo `M` that are short compared with `B`, and a
combination of them that keeps the first coordinate only. -/
structure Certificate (M a B : ℤ) (n : ℕ) where
  rows : Fin (n + 1) → Fin (n + 1) → ℤ
  weights : Fin (n + 1) → ℤ
  scale : ℤ
  related : ∀ r, M ∣ ∑ k, rows r k * a ^ k.val
  short : ∀ r, (∑ k, |rows r k|) * B ≤ M
  scale_ne : scale ≠ 0
  isolates : ∀ k, ∑ r, weights r * rows r k = if k = 0 then scale else 0

/-- Small numbers that satisfy the recurrence are zero. -/
theorem Certificate.eq_zero {M a B : ℤ} {n : ℕ} (c : Certificate M a B n) (hM : 0 < M)
    {x : ℕ → ℤ} (h : ∀ k, x (k + 1) ≡ a * x k [ZMOD M]) (hx : ∀ k ≤ n, |x k| < B) : x 0 = 0 := by
  have hrow : ∀ r, ∑ k, c.rows r k * x k = 0 := by
    intro r
    apply Int.eq_zero_of_abs_lt_dvd (dvd_sum h (c.related r))
    exact abs_sum_lt hM (fun k => hx k (by omega)) (c.short r)
  have hscale : c.scale * x 0 = 0 := by
    calc c.scale * x 0 = ∑ k : Fin (n + 1), (if k = 0 then c.scale else 0) * x k := by
          simp [ite_mul]
      _ = ∑ k : Fin (n + 1), (∑ r, c.weights r * c.rows r k) * x k := by simp only [c.isolates]
      _ = ∑ r, c.weights r * ∑ k : Fin (n + 1), c.rows r k * x k := by
          simp only [Finset.sum_mul, Finset.mul_sum]
          rw [Finset.sum_comm]
          simp only [mul_assoc]
      _ = 0 := by simp [hrow]
  exact (mul_eq_zero.mp hscale).resolve_left c.scale_ne

structure Generator where
  modulus : ℕ
  multiplier : ℕ
  increment : ℕ

namespace Generator

variable (g : Generator)

def next (s : ℕ) : ℕ := (s * g.multiplier + g.increment) % g.modulus

theorem next_sub (s t : ℕ) :
    (g.next s - g.next t : ℤ) ≡ g.multiplier * (s - t : ℤ) [ZMOD g.modulus] := by
  have hs : (g.next s : ℤ) ≡ s * g.multiplier + g.increment [ZMOD g.modulus] := by
    unfold next
    push_cast
    exact Int.mod_modEq _ _
  have ht : (g.next t : ℤ) ≡ t * g.multiplier + g.increment [ZMOD g.modulus] := by
    unfold next
    push_cast
    exact Int.mod_modEq _ _
  have hsub := hs.sub ht
  have hring : (s * g.multiplier + g.increment - (t * g.multiplier + g.increment) : ℤ) =
      g.multiplier * (s - t) := by ring
  rwa [hring] at hsub

variable {g} {s t : ℕ}

theorem next_injective (hc : Nat.Coprime g.multiplier g.modulus) (hs : s < g.modulus)
    (ht : t < g.modulus) (h : g.next s = g.next t) : s = t := by
  have hmod := g.next_sub s t
  rw [h, sub_self] at hmod
  have hdvd : (g.modulus : ℤ) ∣ g.multiplier * (s - t : ℤ) :=
    (Int.modEq_zero_iff_dvd).mp hmod.symm
  have hcop : IsCoprime (g.modulus : ℤ) g.multiplier := Nat.isCoprime_iff_coprime.mpr hc.symm
  have hdiff := hcop.dvd_of_dvd_mul_left hdvd
  have hzero := Int.eq_zero_of_abs_lt_dvd hdiff (by rw [abs_lt]; omega)
  omega

theorem abs_sub_lt_of_div_eq {B : ℕ} (hB : 0 < B) (h : s / B = t / B) : |(s - t : ℤ)| < B := by
  have hs := Nat.div_add_mod s B
  have ht := Nat.div_add_mod t B
  have hs' := Nat.mod_lt s hB
  have ht' := Nat.mod_lt t hB
  rw [h] at hs
  rw [abs_lt]
  omega

/-- Runs whose first outputs agree start from the same state. -/
theorem separates {B n : ℕ} (c : Certificate g.modulus g.multiplier B n) (hB : 0 < B)
    (hc : Nat.Coprime g.multiplier g.modulus) (hs : s < g.modulus) (ht : t < g.modulus)
    (h : ∀ k ≤ n, g.next^[k + 1] s / B = g.next^[k + 1] t / B) : s = t := by
  have hM : (0 : ℤ) < g.modulus := by omega
  have hstep : ∀ k, (g.next^[k + 1 + 1] s - g.next^[k + 1 + 1] t : ℤ) ≡
      g.multiplier * (g.next^[k + 1] s - g.next^[k + 1] t : ℤ) [ZMOD g.modulus] := by
    intro k
    rw [Function.iterate_succ_apply' g.next (k + 1) s,
      Function.iterate_succ_apply' g.next (k + 1) t]
    exact g.next_sub _ _
  have hzero := c.eq_zero hM (x := fun k => (g.next^[k + 1] s - g.next^[k + 1] t : ℤ)) hstep
    fun k hk => abs_sub_lt_of_div_eq hB (h k hk)
  have hfirst : (g.next s - g.next t : ℤ) = 0 := hzero
  exact next_injective hc hs ht (by omega)

end Generator

end LinearCongruential
