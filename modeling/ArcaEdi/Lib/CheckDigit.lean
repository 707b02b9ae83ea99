import Mathlib.Algebra.BigOperators.Group.List.Basic
import Mathlib.Algebra.Ring.Basic
import Mathlib.Tactic.Ring
import Mathlib.Tactic.LinearCombination

/-!
# Weighted check sums

A number whose digits, each times the weight of its place, add up to zero. Where no
weight is zero, no other number that differs in one place does. Where neighbours
have different weights, no number with two neighbours swapped does.
-/

namespace CheckDigit

variable {R : Type*} [CommRing R] {weights pre post : List R} {a b w w' : R}

/-- The sum of the digits, each by its weight. -/
def weighted (weights digits : List R) : R := (List.zipWith (· * ·) digits weights).sum

@[simp] theorem weighted_nil : weighted weights [] = 0 := by simp [weighted]

theorem weighted_cons {digits : List R} :
    weighted (w :: weights) (a :: digits) = a * w + weighted weights digits := by simp [weighted]

theorem weighted_append {digits : List R} :
    weighted weights (pre ++ digits) =
      weighted weights pre + weighted (weights.drop pre.length) digits := by
  induction pre generalizing weights with
  | nil => simp
  | cons d pre ih =>
    cases weights with
    | nil => simp [weighted]
    | cons w weights =>
      rw [List.cons_append, weighted_cons, weighted_cons, ih]
      simp only [List.length_cons, List.drop_succ_cons]
      ring

variable [NoZeroDivisors R]

theorem weighted_single (h : weights[pre.length]? = some w) (hw : w ≠ 0) :
    weighted weights (pre ++ a :: post) = weighted weights (pre ++ b :: post) ↔ a = b := by
  obtain ⟨hlt, rfl⟩ := List.getElem?_eq_some_iff.mp h
  rw [weighted_append, weighted_append, List.drop_eq_getElem_cons hlt, weighted_cons, weighted_cons,
    add_right_inj, add_left_inj]
  exact mul_left_inj' hw

theorem weighted_swap (h : weights[pre.length]? = some w) (h' : weights[pre.length + 1]? = some w')
    (hw : w ≠ w') :
    weighted weights (pre ++ a :: b :: post) = weighted weights (pre ++ b :: a :: post) ↔ a = b := by
  obtain ⟨hlt, rfl⟩ := List.getElem?_eq_some_iff.mp h
  obtain ⟨hlt', rfl⟩ := List.getElem?_eq_some_iff.mp h'
  rw [weighted_append, weighted_append, List.drop_eq_getElem_cons hlt,
    List.drop_eq_getElem_cons hlt', weighted_cons, weighted_cons, weighted_cons, weighted_cons,
    add_right_inj]
  constructor
  · intro heq
    have hproduct : (a - b) * (weights[pre.length] - weights[pre.length + 1]) = 0 := by
      linear_combination heq
    rcases mul_eq_zero.mp hproduct with hzero | hzero
    · exact sub_eq_zero.mp hzero
    · exact absurd (sub_eq_zero.mp hzero) hw
  · rintro rfl
    rfl

end CheckDigit
