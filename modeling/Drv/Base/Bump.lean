import Mathlib.Order.CompletePartialOrder
import Mathlib.Order.Interval.Set.Disjoint
import Mathlib.Data.List.Pairwise
import Mathlib.Data.Nat.Bitwise

/-!
# Handing out from a cursor

An allocator that only moves forward: every range it hands out starts at
or after the cursor and ends at or before the next one. What it has
handed out is then ordered by address, so no two ranges overlap
(`Bumped.disjoint`), whatever becomes of them later.

The start of a range is the cursor rounded up to a power of two, which
programs compute by clearing the low bits of a word (`roundUp_spec`).
-/

namespace Drv

open List hiding Disjoint

/-! ## Rounding up -/

theorem and_clear_low {w k x : ℕ} (hk : k ≤ w) (hx : x < 2 ^ w) :
    x &&& (2 ^ w - 1 - (2 ^ k - 1)) = x / 2 ^ k * 2 ^ k := by
  have hmask : 2 ^ w - 1 - (2 ^ k - 1) = (2 ^ (w - k) - 1) * 2 ^ k := by
    have hsplit : 2 ^ w = 2 ^ (w - k) * 2 ^ k := by rw [← Nat.pow_add, Nat.sub_add_cancel hk]
    have hpos := Nat.two_pow_pos k
    rw [Nat.sub_mul, hsplit]
    omega
  rw [hmask]
  apply Nat.eq_of_testBit_eq
  intro i
  rw [Nat.testBit_and, Nat.testBit_mul_two_pow, Nat.testBit_mul_two_pow,
    Nat.testBit_two_pow_sub_one, Nat.testBit_div_two_pow]
  by_cases hi : k ≤ i
  · by_cases hw : i < w
    · have hlt : i - k < w - k := by omega
      simp [hi, hlt]
    · have hz : x.testBit i = false :=
        Nat.testBit_lt_two_pow (hx.trans_le (Nat.pow_le_pow_right (by decide) (by omega)))
      simp [hi, hz]
  · simp [hi]

theorem roundUp_spec {w k x : ℕ} (hk : k ≤ w) (hx : x + (2 ^ k - 1) < 2 ^ w) :
    let y := (x + (2 ^ k - 1)) &&& (2 ^ w - 1 - (2 ^ k - 1))
    x ≤ y ∧ 2 ^ k ∣ y := by
  intro y
  have hy : y = (x + (2 ^ k - 1)) / 2 ^ k * 2 ^ k := and_clear_low hk hx
  have hmod := Nat.div_add_mod' (x + (2 ^ k - 1)) (2 ^ k)
  rw [hy]
  exact ⟨by omega, Nat.dvd_mul_left _ _⟩

/-! ## The cursor -/

section
variable {α : Type} (lo hi : α → ℕ)

/-- What was handed out lies before the cursor, in order. -/
structure Bumped (cursor : ℕ) (log : List α) : Prop where
  below : ∀ a ∈ log, hi a ≤ cursor
  ordered : log.Pairwise fun a b => hi a ≤ lo b

variable {lo hi}

theorem Bumped.push {cursor cursor' : ℕ} {log : List α} {a : α} (h : Bumped lo hi cursor log)
    (hlo : cursor ≤ lo a) (hcur : cursor ≤ cursor') (hhi : hi a ≤ cursor') :
    Bumped lo hi cursor' (log ++ [a]) := by
  constructor
  · refine forall_mem_append.mpr ⟨fun b hb => (h.below b hb).trans hcur, ?_⟩
    exact forall_mem_singleton.mpr hhi
  · rw [pairwise_append]
    refine ⟨h.ordered, pairwise_singleton _ a, fun b hb c hc => ?_⟩
    rw [mem_singleton.mp hc]
    exact (h.below b hb).trans hlo

/-- Two ranges handed out at different times do not overlap. -/
theorem Bumped.disjoint {cursor : ℕ} {log : List α} (h : Bumped lo hi cursor log) :
    log.Pairwise fun a b => Disjoint (Set.Ico (lo a) (hi a)) (Set.Ico (lo b) (hi b)) := by
  refine h.ordered.imp fun {a b} hab => ?_
  rw [Set.Ico_disjoint_Ico]
  exact (min_le_left _ _).trans (hab.trans (le_max_right _ _))

end

end Drv
