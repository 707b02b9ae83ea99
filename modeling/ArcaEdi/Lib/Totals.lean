import Mathlib.Algebra.BigOperators.Group.List.Basic
import Mathlib.Algebra.Order.Round
import Mathlib.Tactic.Linarith
import Mathlib.Tactic.Ring

/-!
# Totals, rounded at once or part by part

Rounding to a multiple of a unit, with halves away from zero. A total that is
rounded at once may differ from its parts rounded one by one: by how much is a
question of the residues alone.
-/

namespace Totals

/-! ## Rounding -/

section Rounding

variable {α : Type*} [Field α] [LinearOrder α] [FloorRing α]

/-- The nearest multiple of the unit. A half goes away from zero. -/
def roundTo (unit x : α) : α :=
  if x < 0 then -(round (-x / unit) * unit) else round (x / unit) * unit

/-- What rounding leaves out. -/
def residue (unit x : α) : α := x - roundTo unit x

/-- A difference that rounding takes off `x`: less than half a unit, or a half on the
side of zero. -/
def Settles (unit x difference : α) : Prop :=
  if x < 0 then -(unit / 2) < difference ∧ difference ≤ unit / 2
  else -(unit / 2) ≤ difference ∧ difference < unit / 2

instance (unit x difference : α) : Decidable (Settles unit x difference) :=
  inferInstanceAs (Decidable (if x < 0 then _ ∧ _ else _ ∧ _))

def Multiple (unit x : α) : Prop := ∃ n : ℤ, x = n * unit

variable {unit x y : α}

omit [LinearOrder α] [FloorRing α] in
theorem multiple_zero : Multiple unit 0 := ⟨0, by simp⟩

omit [LinearOrder α] [FloorRing α] in
theorem Multiple.neg (h : Multiple unit x) : Multiple unit (-x) := by
  obtain ⟨n, rfl⟩ := h
  exact ⟨-n, by simp⟩

omit [LinearOrder α] [FloorRing α] in
theorem Multiple.add (hx : Multiple unit x) (hy : Multiple unit y) : Multiple unit (x + y) := by
  obtain ⟨n, rfl⟩ := hx
  obtain ⟨k, rfl⟩ := hy
  exact ⟨n + k, by push_cast; ring⟩

omit [LinearOrder α] [FloorRing α] in
theorem multiple_sum {l : List α} (h : ∀ x ∈ l, Multiple unit x) : Multiple unit l.sum := by
  induction l with
  | nil => exact multiple_zero
  | cons x l ih =>
    rw [List.sum_cons]
    exact (h x (by simp)).add (ih fun y hy => h y (by simp [hy]))

theorem roundTo_multiple : Multiple unit (roundTo unit x) := by
  unfold roundTo
  split
  · exact Multiple.neg ⟨_, rfl⟩
  · exact ⟨_, rfl⟩

variable [IsStrictOrderedRing α]

theorem round_div_eq {n : ℤ} (hu : 0 < unit) :
    round (x / unit) = n ↔ -(unit / 2) ≤ x - n * unit ∧ x - n * unit < unit / 2 := by
  rw [round_eq_iff, Set.mem_Ico, le_div_iff₀ hu, div_lt_iff₀ hu, sub_mul, add_mul]
  constructor <;> rintro ⟨hle, hlt⟩ <;> constructor <;> linarith

theorem roundTo_eq_iff (hu : 0 < unit) (hy : Multiple unit y) :
    roundTo unit x = y ↔ Settles unit x (x - y) := by
  obtain ⟨n, rfl⟩ := hy
  unfold roundTo Settles
  split
  · have hneg : -(↑(round (-x / unit)) * unit) = n * unit ↔ round (-x / unit) = -n := by
      rw [← neg_mul, mul_left_inj' hu.ne', neg_eq_iff_eq_neg, ← Int.cast_neg, Int.cast_inj]
    rw [hneg, round_div_eq hu]
    push_cast
    constructor <;> rintro ⟨hle, hlt⟩ <;> constructor <;> linarith
  · rw [mul_left_inj' hu.ne', Int.cast_inj, round_div_eq hu]

theorem roundTo_of_multiple (hu : 0 < unit) (h : Multiple unit x) : roundTo unit x = x := by
  rw [roundTo_eq_iff hu h, sub_self]
  unfold Settles
  split <;> constructor <;> linarith

theorem roundTo_zero (hu : 0 < unit) : roundTo unit 0 = 0 := roundTo_of_multiple hu multiple_zero

theorem abs_roundTo_sub_le (hu : 0 < unit) : |roundTo unit x - x| ≤ unit / 2 := by
  have hsettles : Settles unit x (x - roundTo unit x) := (roundTo_eq_iff hu roundTo_multiple).mp rfl
  rw [abs_sub_comm, abs_le]
  unfold Settles at hsettles
  split at hsettles <;> constructor <;> linarith

theorem roundTo_nonneg (hu : 0 < unit) (hx : 0 ≤ x) : 0 ≤ roundTo unit x := by
  unfold roundTo
  rw [if_neg (not_lt.mpr hx), round_eq]
  have hfloor : 0 ≤ ⌊x / unit + 1 / 2⌋ := Int.floor_nonneg.mpr (by positivity)
  exact mul_nonneg (by exact_mod_cast hfloor) hu.le

theorem roundTo_pos_iff (hu : 0 < unit) (hx : 0 ≤ x) : 0 < roundTo unit x ↔ unit / 2 ≤ x := by
  have hzero : roundTo unit x = 0 ↔ x < unit / 2 := by
    rw [roundTo_eq_iff hu multiple_zero, sub_zero]
    unfold Settles
    rw [if_neg (not_lt.mpr hx)]
    exact ⟨fun h => h.2, fun h => ⟨by linarith, h⟩⟩
  rw [lt_iff_le_and_ne, and_iff_right (roundTo_nonneg hu hx), ne_comm, ne_eq, hzero, not_lt]

omit [FloorRing α] [IsStrictOrderedRing α] [LinearOrder α] in
theorem sum_sub (l : List α) (f : α → α) : l.sum - (l.map f).sum = (l.map fun x => x - f x).sum := by
  induction l with
  | nil => simp
  | cons x l ih =>
    simp only [List.map_cons, List.sum_cons, ← ih]
    ring

/-- A total rounds to the sum of its rounded parts exactly when the residues of the
parts settle. -/
theorem roundTo_sum (hu : 0 < unit) (l : List α) :
    roundTo unit l.sum = (l.map (roundTo unit)).sum ↔
      Settles unit l.sum (l.map (residue unit)).sum := by
  have hmultiple : Multiple unit (l.map (roundTo unit)).sum := by
    refine multiple_sum fun y hy => ?_
    obtain ⟨x, -, rfl⟩ := List.mem_map.mp hy
    exact roundTo_multiple
  rw [roundTo_eq_iff hu hmultiple, sum_sub]
  rfl

end Rounding

/-! ## Groups -/

section Groups

variable {ι κ α : Type*} [DecidableEq κ] [AddCommMonoid α] {key : ι → κ} {f : ι → α} {k : κ}
  {x : ι} {l : List ι} {keys : List κ}

def groupTotal (key : ι → κ) (f : ι → α) (k : κ) (l : List ι) : α :=
  ((l.filter fun x => key x = k).map f).sum

@[simp] theorem groupTotal_nil : groupTotal key f k [] = 0 := rfl

@[simp] theorem groupTotal_cons :
    groupTotal key f k (x :: l) = (if key x = k then f x else 0) + groupTotal key f k l := by
  unfold groupTotal
  split
  · next h => simp [h]
  · next h => simp [h]

theorem groupTotal_cons_of_eq (h : key x = k) :
    groupTotal key f k (x :: l) = f x + groupTotal key f k l := by
  rw [groupTotal_cons, if_pos h]

theorem groupTotal_cons_of_ne (h : key x ≠ k) :
    groupTotal key f k (x :: l) = groupTotal key f k l := by
  rw [groupTotal_cons, if_neg h, zero_add]

theorem groupTotal_append {l' : List ι} :
    groupTotal key f k (l ++ l') = groupTotal key f k l + groupTotal key f k l' := by
  simp [groupTotal]

theorem groupTotal_of_notMem (h : k ∉ l.map key) : groupTotal key f k l = 0 := by
  induction l with
  | nil => rfl
  | cons x l ih =>
    simp only [List.map_cons, List.mem_cons, not_or] at h
    rw [groupTotal_cons_of_ne (Ne.symm h.1), ih h.2]

theorem groupTotal_of_mem (hl : (l.map key).Nodup) (hx : x ∈ l) : groupTotal key f (key x) l = f x := by
  induction l with
  | nil => simp at hx
  | cons y l ih =>
    simp only [List.map_cons, List.nodup_cons] at hl
    rcases List.mem_cons.mp hx with rfl | hx
    · rw [groupTotal_cons_of_eq rfl, groupTotal_of_notMem hl.1, add_zero]
    · have hne : key y ≠ key x := fun heq => hl.1 (heq ▸ List.mem_map_of_mem hx)
      rw [groupTotal_cons_of_ne hne, ih hl.2 hx]

theorem groupTotal_perm {l' : List ι} (h : l.Perm l') : groupTotal key f k l = groupTotal key f k l' :=
  ((h.filter _).map f).sum_eq

theorem groupTotal_of_forall {k' : κ} (h : ∀ y ∈ l, key y = k') :
    groupTotal key f k l = if k' = k then (l.map f).sum else 0 := by
  induction l with
  | nil => simp
  | cons y l ih =>
    rw [groupTotal_cons, h y (by simp), ih fun z hz => h z (by simp [hz])]
    split <;> simp

theorem sum_ite_eq (hk : k ∈ keys) (hn : keys.Nodup) (a : α) :
    (keys.map fun k' => if k = k' then a else 0).sum = a := by
  rw [List.sum_map_eq_nsmul_single k _ fun k' hk' _ => if_neg hk'.symm, hn.count,
    if_pos hk, if_pos rfl, one_nsmul]

theorem sum_groupTotal (hn : keys.Nodup) (h : ∀ x ∈ l, key x ∈ keys) :
    (keys.map fun k => groupTotal key f k l).sum = (l.map f).sum := by
  induction l with
  | nil => simp
  | cons x l ih =>
    simp only [groupTotal_cons, List.sum_map_add, List.map_cons, List.sum_cons]
    rw [sum_ite_eq (h x (by simp)) hn, ih fun y hy => h y (by simp [hy])]

theorem sum_map_groups {g : α → α} (hg : g 0 = 0) (hn : keys.Nodup) (hl : (l.map key).Nodup)
    (h : ∀ x ∈ l, key x ∈ keys) :
    (l.map fun x => g (f x)).sum = (keys.map fun k => g (groupTotal key f k l)).sum := by
  have hgroup : ∀ k, groupTotal key (fun x => g (f x)) k l = g (groupTotal key f k l) := by
    intro k
    induction l with
    | nil => simp [hg]
    | cons x l ih =>
      simp only [List.map_cons, List.nodup_cons] at hl
      by_cases hx : key x = k
      · subst hx
        rw [groupTotal_cons_of_eq rfl, groupTotal_cons_of_eq rfl, groupTotal_of_notMem hl.1,
          groupTotal_of_notMem hl.1, add_zero, add_zero]
      · rw [groupTotal_cons_of_ne hx, groupTotal_cons_of_ne hx]
        exact ih hl.2 fun y hy => h y (by simp [hy])
  rw [← sum_groupTotal hn h]
  simp only [hgroup]

end Groups

end Totals
