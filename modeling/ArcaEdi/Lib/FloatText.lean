import Mathlib.Data.List.DropRight
import Mathlib.Tactic.FieldSimp
import ArcaEdi.Lib.Json
import ArcaEdi.Lib.Totals

/-!
# `float.__repr__`

Of an exact decimal: the digits without the zeros at their end, and the point among
them or a power of ten after them, by where the point falls.
-/

namespace FloatText

open Json Totals

/-- The digits before the point, those after it, and the power of ten. -/
structure Numeral where
  whole : List Char
  decimals : List Char
  power : Option Int
  deriving DecidableEq

def Numeral.text (n : Numeral) : List Char :=
  n.whole ++ (fractionText n.decimals ++ powerText n.power)

/-- The value of the digits with the point before the first one, times a power of ten. -/
def numeral (digits : List Char) (point : Int) : Numeral :=
  if -4 < point ∧ point ≤ 16 then
    if point ≤ 0 then ⟨['0'], List.replicate (-point).toNat '0' ++ digits, none⟩
    else if digits.length ≤ point.toNat then
      ⟨digits ++ List.replicate (point.toNat - digits.length) '0', ['0'], none⟩
    else ⟨digits.take point.toNat, digits.drop point.toNat, none⟩
  else ⟨digits.take 1, digits.drop 1, some (point - 1)⟩

/-- `repr(x)` of a number with so many decimals. -/
def floatRepr (decimals : Nat) (x : ℚ) : List Char :=
  let n := (|x| * 10 ^ decimals).floor.toNat
  let written := Nat.toDigits 10 n
  (if x < 0 then ['-'] else []) ++
    (if n = 0 then (⟨['0'], ['0'], none⟩ : Numeral)
      else numeral (written.rdropWhile (· = '0')) (written.length - decimals)).text

example : floatRepr 6 (1234 / 10) = "123.4".toList := by decide +kernel
example : floatRepr 6 (1 / 100000) = "1e-05".toList := by decide +kernel
example : floatRepr 6 (15 * 10 ^ 15) = "1.5e+16".toList := by decide +kernel

/-! ## The value of a numeral -/

def Numeral.value (n : Numeral) : ℚ :=
  (Nat.ofDigitChars 10 (n.whole ++ n.decimals) 0 : ℚ) * 10 ^ (n.power.getD 0 - n.decimals.length : Int)

theorem ofDigitChars_zeros {digits : List Char} {k : Nat} :
    Nat.ofDigitChars 10 (digits ++ List.replicate k '0') 0 = Nat.ofDigitChars 10 digits 0 * 10 ^ k := by
  rw [Nat.ofDigitChars_append, Nat.ofDigitChars_replicate_zero, mul_comm]

theorem numeral_value {digits : List Char} {point : Int} (hne : digits ≠ []) :
    (numeral digits point).value =
      (Nat.ofDigitChars 10 digits 0 : ℚ) * 10 ^ (point - digits.length) := by
  have hlen : 1 ≤ digits.length := List.length_pos_iff.mpr hne
  unfold numeral Numeral.value
  split
  · split
    · next hpoint =>
      have hvalue : Nat.ofDigitChars 10 (['0'] ++ (List.replicate (-point).toNat '0' ++ digits)) 0 =
          Nat.ofDigitChars 10 digits 0 := by
        have hzero : Nat.ofDigitChars 10 ['0'] 0 = 0 := rfl
        rw [Nat.ofDigitChars_append, Nat.ofDigitChars_append, Nat.ofDigitChars_replicate_zero, hzero,
          mul_zero]
      rw [hvalue, List.length_append, List.length_replicate]
      congr 2
      simp only [Option.getD_none]
      omega
    · split
      · next hpoint hshort =>
        have hshift : point - digits.length = ((point.toNat - digits.length : Nat) : Int) := by omega
        have hlast : digits ++ List.replicate (point.toNat - digits.length) '0' ++ ['0'] =
            digits ++ List.replicate (point.toNat - digits.length + 1) '0' := by
          rw [List.replicate_succ', List.append_assoc]
        rw [hlast, ofDigitChars_zeros, hshift, zpow_natCast, pow_succ]
        push_cast
        simp only [Option.getD_none, List.length_singleton, Nat.cast_one, zero_sub, zpow_neg_one]
        field_simp
      · next hpoint hlong =>
        rw [List.take_append_drop, List.length_drop]
        congr 2
        simp only [Option.getD_none]
        omega
  · rw [List.take_append_drop, List.length_drop]
    congr 2
    simp only [Option.getD_some]
    omega

/-! ## What is read of it -/

theorem whole_of_lead {digits : List Char} (hne : digits ≠ []) (h : ∀ c ∈ digits, c.isDigit)
    (hlead : digits.head? ≠ some '0') : Whole digits :=
  ⟨hne, h, fun heq => absurd heq hlead⟩

theorem numeral_read {digits : List Char} (point : Int) (hdigits : ∀ c ∈ digits, c.isDigit)
    (hne : digits ≠ []) (hlead : digits.head? ≠ some '0') :
    Whole (numeral digits point).whole ∧ (∀ c ∈ (numeral digits point).decimals, c.isDigit) ∧
      ¬ ((numeral digits point).decimals = [] ∧ (numeral digits point).power = none) := by
  have hzeros : ∀ k, ∀ c ∈ List.replicate k '0', c.isDigit := by
    intro k c hc
    obtain rfl := List.eq_of_mem_replicate hc
    decide
  obtain ⟨d, digits, rfl⟩ := List.exists_cons_of_ne_nil hne
  unfold numeral
  split
  · split
    · refine ⟨⟨by simp, by simp, fun _ => rfl⟩, fun c hc => ?_, by simp⟩
      exact (List.mem_append.mp hc).elim (hzeros _ c) (hdigits c)
    · split
      · refine ⟨whole_of_lead (by simp) (fun c hc => ?_) (by simpa using hlead), by simp, by simp⟩
        exact (List.mem_append.mp hc).elim (hdigits c) (hzeros _ c)
      · next hpoint hlong =>
        obtain ⟨k, hk⟩ : ∃ k, point.toNat = k + 1 := ⟨point.toNat - 1, by omega⟩
        simp only [hk] at hlong ⊢
        refine ⟨whole_of_lead (by simp) (fun c hc => hdigits c (List.mem_of_mem_take hc))
          (by simpa using hlead), fun c hc => hdigits c (List.mem_of_mem_drop hc), ?_⟩
        rintro ⟨hnil, -⟩
        exact hlong (List.drop_eq_nil_iff.mp hnil)
  · exact ⟨whole_of_lead (by simp) (fun c hc => hdigits c (List.mem_of_mem_take hc))
      (by simpa using hlead), fun c hc => hdigits c (List.mem_of_mem_drop hc), by simp⟩

theorem toDigits_stripped (n : Nat) : ∃ k, Nat.toDigits 10 n =
    (Nat.toDigits 10 n).rdropWhile (· = '0') ++ List.replicate k '0' := by
  have hzeros : ∀ c ∈ (Nat.toDigits 10 n).rtakeWhile (· = '0'), c = '0' := fun c hc => by
    simpa using List.mem_rtakeWhile_imp hc
  refine ⟨((Nat.toDigits 10 n).rtakeWhile (· = '0')).length, ?_⟩
  rw [← List.eq_replicate_of_mem hzeros, List.rdropWhile_append_rtakeWhile]

section Stripped

variable {n k : Nat} {digits : List Char}

theorem stripped_value (h : Nat.toDigits 10 n = digits ++ List.replicate k '0') :
    Nat.ofDigitChars 10 digits 0 * 10 ^ k = n := by
  rw [← ofDigitChars_zeros, ← h, Nat.ofDigitChars_ten_toDigits]

theorem stripped_ne_nil (hn : 0 < n) (h : Nat.toDigits 10 n = digits ++ List.replicate k '0') :
    digits ≠ [] := by
  rintro rfl
  have hvalue := stripped_value h
  rw [Nat.ofDigitChars_nil] at hvalue
  omega

theorem stripped_isDigit (h : Nat.toDigits 10 n = digits ++ List.replicate k '0') :
    ∀ c ∈ digits, c.isDigit := fun c hc =>
  Nat.isDigit_of_mem_toDigits (b := 10) (n := n) (by decide) (by decide) (by simp [h, hc])

theorem stripped_lead (hn : 0 < n) (h : Nat.toDigits 10 n = digits ++ List.replicate k '0') :
    digits.head? ≠ some '0' := by
  obtain ⟨d, digits, rfl⟩ := List.exists_cons_of_ne_nil (stripped_ne_nil hn h)
  have hlead := toDigits_lead hn
  rwa [h] at hlead

end Stripped

theorem numeral_spec (decimals : Nat) {n : Nat} (hn : 0 < n) :
    let written := Nat.toDigits 10 n
    let m := numeral (written.rdropWhile (· = '0')) (written.length - decimals)
    Whole m.whole ∧ (∀ c ∈ m.decimals, c.isDigit) ∧ ¬ (m.decimals = [] ∧ m.power = none) ∧
      m.value = n / 10 ^ decimals := by
  intro written m
  obtain ⟨k, hk⟩ := toDigits_stripped n
  have hne := stripped_ne_nil hn hk
  have hread := numeral_read (written.length - decimals) (stripped_isDigit hk) hne (stripped_lead hn hk)
  refine ⟨hread.1, hread.2.1, hread.2.2, ?_⟩
  have hlen : (written.length : Int) = (written.rdropWhile (· = '0')).length + k := by
    have hlength := congrArg List.length hk
    rw [List.length_append, List.length_replicate] at hlength
    exact_mod_cast hlength
  have hpower : (written.length - decimals - (written.rdropWhile (· = '0')).length : Int) = k - decimals := by
    omega
  have hvalue : (n : ℚ) = Nat.ofDigitChars 10 (written.rdropWhile (· = '0')) 0 * 10 ^ k := by
    exact_mod_cast (stripped_value hk).symm
  rw [numeral_value hne, hpower, hvalue, zpow_sub₀ (by norm_num), zpow_natCast, zpow_natCast, mul_div_assoc]

theorem number?_numeral (minus : Bool) {m : Numeral} {rest : List Char} (hwhole : Whole m.whole)
    (hdecimals : ∀ c ∈ m.decimals, c.isDigit) (hfloat : ¬ (m.decimals = [] ∧ m.power = none))
    (hrest : Ends rest) : number? ((if minus then ['-'] else []) ++ m.text ++ rest) =
      some (.float (if minus then -m.value else m.value), rest) := by
  have hread := number?_eq minus m.power hwhole hdecimals hrest
  simp only [hfloat, if_false] at hread
  rw [Numeral.text, List.append_assoc, List.append_assoc, List.append_assoc, hread, Numeral.value]
  cases minus
  · simp
  · simp

theorem floatRepr_read {decimals : Nat} {x : ℚ} (h : Multiple (1 / 10 ^ decimals) x) {rest : List Char}
    (hrest : Ends rest) : number? (floatRepr decimals x ++ rest) = some (.float x, rest) := by
  obtain ⟨z, rfl⟩ := h
  have hscale : (0 : ℚ) < 10 ^ decimals := by positivity
  have hcount : (|(z : ℚ) * (1 / 10 ^ decimals)| * 10 ^ decimals).floor.toNat = z.natAbs := by
    have hz : |(z : ℚ) * (1 / 10 ^ decimals)| * 10 ^ decimals = ((z.natAbs : Int) : ℚ) := by
      rw [abs_mul, abs_of_pos (one_div_pos.mpr hscale), mul_assoc, one_div_mul_cancel hscale.ne', mul_one,
        Int.natCast_natAbs, Int.cast_abs]
    rw [hz, Rat.floor_intCast, Int.toNat_natCast]
  have hsign : (z : ℚ) * (1 / 10 ^ decimals) < 0 ↔ z < 0 := by
    have hunit := one_div_pos.mpr hscale
    rw [mul_neg_iff, Int.cast_lt_zero]
    exact ⟨fun h => h.elim (fun h => absurd h.2 hunit.not_gt) And.left, fun h => .inr ⟨h, hunit⟩⟩
  unfold floatRepr
  simp only [hcount, hsign]
  rcases Nat.eq_zero_or_pos z.natAbs with hzero | hpos
  · obtain rfl := Int.natAbs_eq_zero.mp hzero
    have hread := number?_numeral false (m := ⟨['0'], ['0'], none⟩)
      ⟨by simp, by simp, fun _ => rfl⟩ (by simp) (by simp) hrest
    have hvalue : (⟨['0'], ['0'], none⟩ : Numeral).value = 0 := by
      have hdigits : Nat.ofDigitChars 10 ['0', '0'] 0 = 0 := rfl
      simp [Numeral.value, hdigits]
    simpa [hvalue] using hread
  · obtain ⟨hwhole, hdecimals, hfloat, hvalue⟩ := numeral_spec decimals hpos
    have hread := number?_numeral (decide (z < 0)) hwhole hdecimals hfloat hrest
    simp only [decide_eq_true_eq] at hread
    rw [if_neg hpos.ne', hread, hvalue]
    have hsigned : (if z < 0 then -((z.natAbs : ℚ) / 10 ^ decimals) else z.natAbs / 10 ^ decimals) =
        z * (1 / 10 ^ decimals) := by
      have habs : (z.natAbs : ℚ) = |(z : ℚ)| := by
        rw [← Int.cast_natCast, Int.natCast_natAbs, Int.cast_abs]
      rw [habs, mul_one_div]
      split
      · next hneg => rw [abs_of_neg (by exact_mod_cast hneg), neg_div, neg_neg]
      · next hneg => rw [abs_of_nonneg (by exact_mod_cast not_lt.mp hneg)]
    rw [hsigned]

/-! ## The characters of a float -/

/-- Digits, the point and the sign, and the power of ten. -/
def FloatChar (c : Char) : Prop := c.isDigit ∨ c ∈ ['.', '-', '+', 'e']

theorem powerText_chars {power : Option Int} {c : Char} (h : c ∈ powerText power) : FloatChar c := by
  cases power with
  | none => simp [powerText] at h
  | some n =>
    simp only [powerText, List.mem_cons] at h
    rcases h with rfl | rfl | h
    · exact .inr (by decide)
    · split <;> exact .inr (by decide)
    · exact .inl (PyText.zeroPad_isDigit h)

theorem text_chars {m : Numeral} (hwhole : Whole m.whole) (hdecimals : ∀ c ∈ m.decimals, c.isDigit)
    {c : Char} (h : c ∈ m.text) : FloatChar c := by
  rw [Numeral.text, List.mem_append, List.mem_append, fractionText] at h
  rcases h with h | h | h
  · exact .inl (hwhole.isDigit c h)
  · split at h
    · cases h
    · rcases List.mem_cons.mp h with rfl | h
      · exact .inr (by decide)
      · exact .inl (hdecimals c h)
  · exact powerText_chars h

theorem floatRepr_eq (decimals : Nat) (x : ℚ) : ∃ m : Numeral, Whole m.whole ∧
    (∀ c ∈ m.decimals, c.isDigit) ∧ floatRepr decimals x = (if x < 0 then ['-'] else []) ++ m.text := by
  unfold floatRepr
  rcases Nat.eq_zero_or_pos (|x| * 10 ^ decimals).floor.toNat with hzero | hpos
  · refine ⟨⟨['0'], ['0'], none⟩, ⟨by simp, by simp, fun _ => rfl⟩, by simp, ?_⟩
    simp only [hzero, if_true]
  · obtain ⟨hwhole, hdecimals, -, -⟩ := numeral_spec decimals hpos
    exact ⟨_, hwhole, hdecimals, by simp only [hpos.ne', if_false]⟩

theorem floatRepr_chars {decimals : Nat} {x : ℚ} {c : Char} (h : c ∈ floatRepr decimals x) :
    FloatChar c := by
  obtain ⟨m, hwhole, hdecimals, hrepr⟩ := floatRepr_eq decimals x
  rw [hrepr, List.mem_append] at h
  rcases h with h | h
  · split at h
    · rw [List.mem_singleton.mp h]
      exact .inr (by decide)
    · cases h
  · exact text_chars hwhole hdecimals h

theorem floatRepr_head (decimals : Nat) (x : ℚ) :
    ∃ c tail, floatRepr decimals x = c :: tail ∧ (c.isDigit ∨ c = '-') := by
  obtain ⟨m, hwhole, -, hrepr⟩ := floatRepr_eq decimals x
  obtain ⟨c, tail, hdigits⟩ := List.exists_cons_of_ne_nil hwhole.ne_nil
  rw [hrepr]
  by_cases hneg : x < 0
  · exact ⟨'-', m.text, by rw [if_pos hneg]; rfl, .inr rfl⟩
  · refine ⟨c, tail ++ (fractionText m.decimals ++ powerText m.power), ?_,
      .inl (hwhole.isDigit c (by simp [hdigits]))⟩
    rw [if_neg hneg, Numeral.text, hdigits]
    rfl

theorem scalar_float {decimals : Nat} {x : ℚ} (h : Multiple (1 / 10 ^ decimals) x) :
    Scalar (floatRepr decimals) (.float x) :=
  .float (fun _ hrest => floatRepr_read h hrest) (floatRepr_head decimals x)

end FloatText
