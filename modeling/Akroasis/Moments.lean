import Mathlib.Algebra.BigOperators.Group.Finset.Piecewise
import Mathlib.Algebra.BigOperators.Ring.Multiset
import Mathlib.Algebra.CharZero.Defs
import Mathlib.Data.Multiset.Lattice
import Mathlib.Order.WithBot
import Mathlib.Tactic.FieldSimp
import Mathlib.Tactic.LinearCombination
import Mathlib.Tactic.Ring

/-!
# Akroasis.Moments

The mean of a finite collection of numbers and the sum of their squared deviations from it,
over any field of characteristic zero, and how the two combine when collections are joined.

Everything is brought to the plain sums `∑ x` and `∑ x²`, which are additive
(`card_mul_mean`, `sumSqDev_eq`).  Besides, the least and the greatest element, with an infinity
for none, and collections that were distributed over bins.  The module names nothing of the
repository.
-/

namespace Akroasis.Moments

variable {K : Type*} [Field K]

/-- The arithmetic mean; zero if there is nothing to average. -/
def mean (s : Multiset K) : K := s.sum / s.card

/-- The sum of the squared deviations from the mean. -/
def sumSqDev (s : Multiset K) : K := (s.map fun x => (x - mean s) ^ 2).sum

@[simp] theorem mean_zero : mean (0 : Multiset K) = 0 := by simp [mean]

@[simp] theorem sumSqDev_zero : sumSqDev (0 : Multiset K) = 0 := by simp [sumSqDev]

@[simp] theorem mean_singleton (x : K) : mean {x} = x := by simp [mean]

@[simp] theorem sumSqDev_singleton (x : K) : sumSqDev {x} = 0 := by simp [sumSqDev]

/-- Squared deviations from any point, by the plain sums. -/
theorem sum_sq_sub (s : Multiset K) (c : K) :
    (s.map fun x => (x - c) ^ 2).sum = (s.map (· ^ 2)).sum - 2 * c * s.sum + s.card * c ^ 2 := by
  induction s using Multiset.induction with
  | empty => simp
  | cons x s ih =>
      simp only [Multiset.map_cons, Multiset.sum_cons, Multiset.card_cons, ih]
      push_cast
      ring

variable [CharZero K]

theorem cast_card_ne_zero {s : Multiset K} (h : s ≠ 0) : (s.card : K) ≠ 0 :=
  Nat.cast_ne_zero.mpr (mt Multiset.card_eq_zero.mp h)

theorem card_mul_mean (s : Multiset K) : s.card * mean s = s.sum := by
  by_cases h : s = 0
  · simp [h]
  · exact mul_div_cancel₀ _ (cast_card_ne_zero h)

theorem sumSqDev_eq (s : Multiset K) :
    sumSqDev s = (s.map (· ^ 2)).sum - s.card * mean s ^ 2 := by
  rw [sumSqDev, sum_sq_sub, ← card_mul_mean s]
  ring

section Join

variable {s t : Multiset K}

theorem cast_card_add_ne_zero (hs : s ≠ 0) : (s.card + t.card : K) ≠ 0 := by
  have hpos : s.card + t.card ≠ 0 := by
    have := mt Multiset.card_eq_zero.mp hs
    omega
  exact_mod_cast hpos

/-- The mean of a union moves from the one mean towards the other by the share of the other. -/
theorem mean_add (hs : s ≠ 0) :
    mean (s + t) = mean s + (mean t - mean s) * (t.card / (s.card + t.card)) := by
  have hcard := cast_card_add_ne_zero (t := t) hs
  have hsum := card_mul_mean (s + t)
  rw [Multiset.sum_add, ← card_mul_mean s, ← card_mul_mean t, Multiset.card_add,
    Nat.cast_add] at hsum
  field_simp
  linear_combination hsum

/-- Squared deviations of a union: those of the parts, and that of the two means, weighted. -/
theorem sumSqDev_add (hs : s ≠ 0) :
    sumSqDev (s + t) = sumSqDev s + sumSqDev t +
      (mean t - mean s) ^ 2 * (s.card * t.card / (s.card + t.card)) := by
  have hcard := cast_card_add_ne_zero (t := t) hs
  rw [sumSqDev_eq, sumSqDev_eq s, sumSqDev_eq t, mean_add hs, Multiset.map_add, Multiset.sum_add,
    Multiset.card_add, Nat.cast_add]
  field_simp
  ring

end Join

/-! ## Extremes -/

section Extremes

variable {α : Type*} [LinearOrder α] {s : Multiset α}

theorem ite_lt_eq_min (a b : α) [Decidable (b < a)] : (if b < a then b else a) = min a b := by
  split
  · next h => exact (min_eq_right h.le).symm
  · next h => exact (min_eq_left (not_lt.mp h)).symm

theorem ite_lt_eq_max (a b : α) [Decidable (a < b)] : (if a < b then b else a) = max a b := by
  split
  · next h => exact (max_eq_right h.le).symm
  · next h => exact (max_eq_left (not_lt.mp h)).symm

/-- The least of some elements is one of them; that of none is `⊤`. -/
theorem exists_inf_coe (h : s ≠ 0) :
    ∃ lo ∈ s, (s.map ((↑) : α → WithTop α)).inf = lo ∧ ∀ x ∈ s, lo ≤ x := by
  induction s using Multiset.induction with
  | empty => exact absurd rfl h
  | cons a s ih =>
      by_cases hs : s = 0
      · exact ⟨a, by simp, by simp [hs], by simp [hs]⟩
      · obtain ⟨lo, hlo, hinf, hle⟩ := ih hs
        refine ⟨min a lo, ?_, ?_, ?_⟩
        · obtain hmin | hmin := min_choice a lo
          · simp [hmin]
          · simp [hmin, hlo]
        · rw [Multiset.map_cons, Multiset.inf_cons, hinf, WithTop.coe_min]
        · intro x hx
          obtain rfl | hx := Multiset.mem_cons.mp hx
          · exact min_le_left _ _
          · exact (min_le_right a lo).trans (hle x hx)

theorem exists_sup_coe (h : s ≠ 0) :
    ∃ hi ∈ s, (s.map ((↑) : α → WithBot α)).sup = hi ∧ ∀ x ∈ s, x ≤ hi := by
  induction s using Multiset.induction with
  | empty => exact absurd rfl h
  | cons a s ih =>
      by_cases hs : s = 0
      · exact ⟨a, by simp, by simp [hs], by simp [hs]⟩
      · obtain ⟨hi, hhi, hsup, hle⟩ := ih hs
        refine ⟨max a hi, ?_, ?_, ?_⟩
        · obtain hmax | hmax := max_choice a hi
          · simp [hmax]
          · simp [hmax, hhi]
        · rw [Multiset.map_cons, Multiset.sup_cons, hsup, WithBot.coe_max]
        · intro x hx
          obtain rfl | hx := Multiset.mem_cons.mp hx
          · exact le_max_left _ _
          · exact (hle x hx).trans (le_max_right a hi)

end Extremes

/-! ## Distribution over bins -/

/-- What is sorted into bins by a key is all there, once. -/
theorem sum_filter_key {α β κ : Type*} [Fintype κ] [DecidableEq κ] (key : α → κ) (f : α → β)
    (xs : List α) :
    ∑ k, (((xs.filter fun x => decide (key x = k)).map f : List β) : Multiset β) =
      (xs.map f : List β) := by
  induction xs with
  | nil => simp
  | cons x xs ih =>
      have hcons :
          ∀ k, ((((x :: xs).filter fun y => decide (key y = k)).map f : List β) : Multiset β) =
          (if key x = k then {f x} else 0) +
            (((xs.filter fun y => decide (key y = k)).map f : List β) : Multiset β) := by
        intro k
        by_cases h : key x = k <;> simp [h]
      simp only [hcons, Finset.sum_add_distrib, ih]
      rw [Finset.sum_ite_eq, if_pos (Finset.mem_univ _), Multiset.singleton_add, Multiset.cons_coe,
        List.map_cons]

end Akroasis.Moments
