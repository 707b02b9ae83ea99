import Mathlib.Algebra.GroupWithZero.Nat
import Mathlib.Data.List.Range

/-!
# The calendar

The Gregorian calendar of Python's `datetime`, which runs back to the first of January of
the year one. That day has ordinal one.
-/

namespace Calendar

def isLeap (year : Nat) : Bool := year % 4 == 0 && (year % 100 != 0 || year % 400 == 0)

def daysInMonth (leap : Bool) (month : Nat) : Nat :=
  if month = 2 then (if leap then 29 else 28) else if month ∈ [4, 6, 9, 11] then 30 else 31

def daysBeforeYear (year : Nat) : Nat :=
  365 * (year - 1) + (year - 1) / 4 - (year - 1) / 100 + (year - 1) / 400

def daysBeforeMonth (leap : Bool) (month : Nat) : Nat :=
  ((List.range (month - 1)).map fun m => daysInMonth leap (m + 1)).sum

def ordinal (year month day : Nat) : Nat :=
  daysBeforeYear year + daysBeforeMonth (isLeap year) month + day

/-! ## The day of an ordinal -/

/-- The month and the day, from the number of days of the year that are over. -/
def monthDay (leap : Bool) (n : Nat) : Nat × Nat :=
  let month := (n + 50) / 32
  let preceding := daysBeforeMonth leap month
  if n < preceding then (month - 1, n - (preceding - daysInMonth leap (month - 1)) + 1)
  else (month, n - preceding + 1)

/-- `_ord2ymd`: cycles of 400, of 100 and of 4 years, and then years. -/
def ofOrdinal (ordinal : Nat) : Nat × Nat × Nat :=
  let n := ordinal - 1
  let n400 := n / 146097
  let n100 := n % 146097 / 36524
  let n4 := n % 146097 % 36524 / 1461
  let n1 := n % 146097 % 36524 % 1461 / 365
  let year := 400 * n400 + 1 + 100 * n100 + 4 * n4 + n1
  if n1 = 4 ∨ n100 = 4 then (year - 1, 12, 31)
  else
    let leap := n1 == 3 && (n4 != 24 || n100 == 3)
    (year, monthDay leap (n % 146097 % 36524 % 1461 % 365))

/-- The last ordinal of the year 9999. -/
def maxOrdinal : Nat := 3652059

/-- A day that the calendar has. -/
structure Valid (year month day : Nat) : Prop where
  one_le_year : 1 ≤ year
  month_mem : 1 ≤ month ∧ month ≤ 12
  day_mem : 1 ≤ day ∧ day ≤ daysInMonth (isLeap year) month

theorem monthDay_spec : ∀ (leap : Bool) (n : Fin 365),
    (1 ≤ (monthDay leap n).1 ∧ (monthDay leap n).1 ≤ 12) ∧
      (1 ≤ (monthDay leap n).2 ∧ (monthDay leap n).2 ≤ daysInMonth leap (monthDay leap n).1) ∧
      daysBeforeMonth leap (monthDay leap n).1 + (monthDay leap n).2 = n.val + 1 := by
  decide +kernel

section Cycles

variable {a b c d : Nat}

theorem daysBeforeYear_cycles (hb : b ≤ 3) (hc : c ≤ 24) (hd : d ≤ 3) :
    daysBeforeYear (400 * a + 1 + 100 * b + 4 * c + d) =
      146097 * a + 36524 * b + 1461 * c + 365 * d := by
  unfold daysBeforeYear
  omega

theorem isLeap_cycles (hb : b ≤ 3) (hc : c ≤ 24) (hd : d ≤ 3) :
    isLeap (400 * a + 1 + 100 * b + 4 * c + d) = (d == 3 && (c != 24 || b == 3)) := by
  rw [Bool.eq_iff_iff]
  simp only [isLeap, Bool.and_eq_true, Bool.or_eq_true, beq_iff_eq, bne_iff_ne]
  omega

theorem last_day (hb : b ≤ 3) (hc : c ≤ 24) (h : c ≠ 24 ∨ b = 3) :
    Valid (400 * a + 1 + 100 * b + 4 * c + 3) 12 31 ∧
      ordinal (400 * a + 1 + 100 * b + 4 * c + 3) 12 31 =
        146097 * a + 36524 * b + 1461 * c + 1461 := by
  have hleap : isLeap (400 * a + 1 + 100 * b + 4 * c + 3) = true := by
    rw [isLeap_cycles hb hc (by decide)]
    simpa using h
  have hmonths : daysBeforeMonth true 12 = 335 := by decide
  refine ⟨⟨by omega, by decide, by rw [hleap]; decide⟩, ?_⟩
  rw [ordinal, hleap, daysBeforeYear_cycles hb hc (by decide), hmonths]

end Cycles

theorem ofOrdinal_spec {n : Nat} (h : 1 ≤ n) :
    Valid (ofOrdinal n).1 (ofOrdinal n).2.1 (ofOrdinal n).2.2 ∧
      ordinal (ofOrdinal n).1 (ofOrdinal n).2.1 (ofOrdinal n).2.2 = n := by
  obtain ⟨m, rfl⟩ : ∃ m, n = m + 1 := ⟨n - 1, by omega⟩
  unfold ofOrdinal
  simp only [Nat.add_sub_cancel]
  generalize ha : m / 146097 = a
  generalize hb : m % 146097 / 36524 = b
  generalize hc : m % 146097 % 36524 / 1461 = c
  generalize hd : m % 146097 % 36524 % 1461 / 365 = d
  by_cases hlast : d = 4 ∨ b = 4
  · rw [if_pos hlast]
    rcases hlast with rfl | rfl
    · obtain ⟨hvalid, hordinal⟩ := last_day (a := a) (b := b) (c := c) (by omega) (by omega) (by omega)
      have hyear : 400 * a + 1 + 100 * b + 4 * c + 4 - 1 = 400 * a + 1 + 100 * b + 4 * c + 3 := by omega
      rw [hyear]
      exact ⟨hvalid, by rw [hordinal]; omega⟩
    · obtain ⟨hvalid, hordinal⟩ := last_day (a := a) (b := 3) (c := 24) (by decide) (by decide) (.inr rfl)
      have hyear : 400 * a + 1 + 100 * 4 + 4 * c + d - 1 = 400 * a + 1 + 100 * 3 + 4 * 24 + 3 := by omega
      rw [hyear]
      exact ⟨hvalid, by rw [hordinal]; omega⟩
  · rw [if_neg hlast]
    have hb3 : b ≤ 3 := by omega
    have hc24 : c ≤ 24 := by omega
    have hd3 : d ≤ 3 := by omega
    have hrest : m % 146097 % 36524 % 1461 % 365 < 365 := Nat.mod_lt _ (by decide)
    obtain ⟨hmonth, hday, hsum⟩ := monthDay_spec (d == 3 && (c != 24 || b == 3)) ⟨_, hrest⟩
    refine ⟨⟨by omega, hmonth, by rw [isLeap_cycles hb3 hc24 hd3]; exact hday⟩, ?_⟩
    simp only [ordinal, isLeap_cycles hb3 hc24 hd3, daysBeforeYear_cycles hb3 hc24 hd3]
    rw [Nat.add_assoc, hsum]
    simp only
    omega

theorem ofOrdinal_year {n : Nat} (h : 1 ≤ n) (hmax : n ≤ maxOrdinal) : (ofOrdinal n).1 ≤ 9999 := by
  obtain ⟨⟨hyear, -, hday⟩, hordinal⟩ := ofOrdinal_spec h
  rw [ordinal, daysBeforeYear] at hordinal
  rw [maxOrdinal] at hmax
  omega

end Calendar
