import Mathlib.Algebra.Group.Nat.Defs

/-!
# What Python's text methods do

Python calls more characters digits than 0 to 9, and `int` reads fewer of them
than `isdigit` accepts. The tables are those of Python 3.11 (Unicode 14).
-/

namespace PyText

/-- The zero of each decimal script. The other nine digits follow it. -/
def decimalZeros : List Nat :=
  [0x30, 0x660, 0x6f0, 0x7c0, 0x966, 0x9e6, 0xa66, 0xae6, 0xb66, 0xbe6, 0xc66, 0xce6, 0xd66, 0xde6,
   0xe50, 0xed0, 0xf20, 0x1040, 0x1090, 0x17e0, 0x1810, 0x1946, 0x19d0, 0x1a80, 0x1a90, 0x1b50,
   0x1bb0, 0x1c40, 0x1c50, 0xa620, 0xa8d0, 0xa900, 0xa9d0, 0xa9f0, 0xaa50, 0xabf0, 0xff10, 0x104a0,
   0x10d30, 0x11066, 0x110f0, 0x11136, 0x111d0, 0x112f0, 0x11450, 0x114d0, 0x11650, 0x116c0, 0x11730,
   0x118e0, 0x11950, 0x11c50, 0x11d50, 0x11da0, 0x16a60, 0x16ac0, 0x16b50, 0x1d7ce, 0x1d7d8, 0x1d7e2,
   0x1d7ec, 0x1d7f6, 0x1e140, 0x1e2f0, 0x1e950, 0x1fbf0]

/-- Digits for `isdigit` that `int` refuses: superscripts, circled digits and the like. -/
def otherDigits : List (Nat × Nat) :=
  [(0xb2, 0xb3), (0xb9, 0xb9), (0x1369, 0x1371), (0x19da, 0x19da), (0x2070, 0x2070),
   (0x2074, 0x2079), (0x2080, 0x2089), (0x2460, 0x2468), (0x2474, 0x247c), (0x2488, 0x2490),
   (0x24ea, 0x24ea), (0x24f5, 0x24fd), (0x24ff, 0x24ff), (0x2776, 0x277e), (0x2780, 0x2788),
   (0x278a, 0x2792), (0x10a40, 0x10a43), (0x10e60, 0x10e68), (0x11052, 0x1105a), (0x1f100, 0x1f10a)]

def whitespace : List Nat :=
  [0x9, 0xa, 0xb, 0xc, 0xd, 0x1c, 0x1d, 0x1e, 0x1f, 0x20, 0x85, 0xa0, 0x1680, 0x2000, 0x2001, 0x2002,
   0x2003, 0x2004, 0x2005, 0x2006, 0x2007, 0x2008, 0x2009, 0x200a, 0x2028, 0x2029, 0x202f, 0x205f,
   0x3000]

/-- `int(ch)` of one character. -/
def decimal? (c : Char) : Option Nat :=
  (decimalZeros.find? fun z => z ≤ c.toNat && c.toNat < z + 10).map (c.toNat - ·)

/-- `ch.isdigit()` -/
def isDigit (c : Char) : Bool :=
  (decimal? c).isSome || otherDigits.any fun r => r.1 ≤ c.toNat && c.toNat ≤ r.2

/-- `"".join(ch for ch in text if ch.isdigit())` -/
def keepDigits (text : String) : String := String.ofList (text.toList.filter isDigit)

/-- `text.isdigit()` -/
def allDigits (text : String) : Bool := text != "" && text.toList.all isDigit

def isSpace (c : Char) : Bool := whitespace.contains c.toNat

def trim (space : Char → Bool) (text : String) : String :=
  String.ofList ((text.toList.dropWhile space).reverse.dropWhile space).reverse

/-- `text.strip()` -/
def strip (text : String) : String := trim isSpace text

/-- What `int` takes off a text. It knows fewer blanks where the whole text is ASCII. -/
def intSpace (text : String) (c : Char) : Bool :=
  if text.toList.all (·.toNat < 128) then [0x9, 0xa, 0xb, 0xc, 0xd, 0x20].contains c.toNat else isSpace c

/-- `text.lower()`, of the letters of ASCII. -/
def lower (text : String) : String := String.ofList (text.toList.map Char.toLower)

/-- The digits of a number. Single underscores may stand between them. -/
def digitRun : List Char → Option (List Nat)
  | [] => none
  | [c] => (decimal? c).map ([·])
  | c :: '_' :: rest => (decimal? c).bind fun d => (digitRun rest).map (d :: ·)
  | c :: rest => (decimal? c).bind fun d => (digitRun rest).map (d :: ·)

/-- Python refuses a text with more digits than this. -/
def maxStrDigits : Nat := 4300

def natOfDigits (ds : List Nat) : Nat := ds.foldl (fun acc d => 10 * acc + d) 0

/-- `int(text)`, or none where it raises ValueError. -/
def int? (text : String) : Option Int :=
  let number (chars : List Char) : Option Nat :=
    (digitRun chars).bind fun ds =>
      if ds.length ≤ maxStrDigits then some (natOfDigits ds) else none
  match (trim (intSpace text) text).toList with
  | '-' :: rest => (number rest).map fun n => -(n : Int)
  | '+' :: rest => (number rest).map fun n => (n : Int)
  | chars => (number chars).map fun n => (n : Int)

/-- `int(text)` of an Odoo Char field, whose empty value is False. -/
def intField? : Option String → Option Int
  | none => some 0
  | some text => int? text

/-- A number padded with zeros to a width. -/
def zeroPad (width n : Nat) : String :=
  let text := toString n
  String.ofList (List.replicate (width - text.length) '0') ++ text

def hasInfix (needle : List Char) : List Char → Bool
  | [] => needle.isEmpty
  | c :: rest => needle.isPrefixOf (c :: rest) || hasInfix needle rest

/-- `needle in text` -/
def contains (text needle : String) : Bool := hasInfix needle.toList text.toList

/-! ## Digits -/

theorem decimal?_lt {c : Char} {n : Nat} (h : decimal? c = some n) : n < 10 := by
  obtain ⟨z, hz, rfl⟩ := Option.map_eq_some_iff.mp h
  have hrange := List.find?_some hz
  simp only [Bool.and_eq_true, decide_eq_true_eq] at hrange
  omega

theorem decimal?_ascii {c : Char} (h : c.isDigit) : decimal? c = some (c.toNat - '0'.toNat) := by
  have hrange : 48 ≤ c.toNat ∧ c.toNat ≤ 57 := Char.isDigit_iff_toNat.mp h
  have hzero : (0x30 ≤ c.toNat && c.toNat < 0x30 + 10) = true := by
    simp only [Bool.and_eq_true, decide_eq_true_eq]
    omega
  unfold decimal? decimalZeros
  rw [List.find?_cons_of_pos (by exact hzero)]
  rfl

@[simp] theorem lower_length {text : String} : (lower text).length = text.length := by
  rw [lower, String.length_ofList, List.length_map, String.length_toList]

theorem isDigit_of_decimal {c : Char} (h : (decimal? c).isSome) : isDigit c := by simp [isDigit, h]

theorem isDigit_ascii {c : Char} (h : c.isDigit) : isDigit c :=
  isDigit_of_decimal (by rw [decimal?_ascii h]; rfl)

theorem not_isSpace_of_isDigit {c : Char} (h : c.isDigit) : isSpace c = false := by
  have hrange : 48 ≤ c.toNat ∧ c.toNat ≤ 57 := Char.isDigit_iff_toNat.mp h
  simp only [isSpace, List.contains_eq_mem, decide_eq_false_iff_not]
  intro hmem
  simp only [whitespace, List.mem_cons, List.not_mem_nil, or_false] at hmem
  omega

theorem trim_of_notSpace {space : Char → Bool} {text : String}
    (h : ∀ c ∈ text.toList, space c = false) : trim space text = text := by
  have hdrop : ∀ chars : List Char, (∀ c ∈ chars, space c = false) →
      chars.dropWhile space = chars := by
    intro chars hchars
    cases chars with
    | nil => rfl
    | cons c rest => rw [List.dropWhile_cons_of_neg (by simp [hchars c])]
  unfold trim
  rw [hdrop _ h, hdrop _ fun c hc => h c (List.mem_reverse.mp hc), List.reverse_reverse,
    String.ofList_toList]

theorem strip_of_notSpace {text : String} (h : ∀ c ∈ text.toList, isSpace c = false) :
    strip text = text :=
  trim_of_notSpace h

theorem intSpace_of_notSpace {text : String} {c : Char} (h : isSpace c = false) :
    intSpace text c = false := by
  unfold intSpace
  split
  · simp only [isSpace, whitespace, List.contains_eq_mem, decide_eq_false_iff_not, List.mem_cons,
      List.not_mem_nil, or_false] at h ⊢
    omega
  · exact h

/-! ## Numbers in decimal -/

def digitValues (chars : List Char) : List Nat := chars.map fun c => c.toNat - '0'.toNat

theorem mapM_decimal? {chars : List Char} (h : ∀ c ∈ chars, c.isDigit) :
    chars.mapM decimal? = some (digitValues chars) := by
  induction chars with
  | nil => rfl
  | cons c rest ih =>
    rw [List.mapM_cons, decimal?_ascii (h c (by simp)), ih fun d hd => h d (by simp [hd])]
    rfl

theorem natOfDigits_digitValues (chars : List Char) :
    natOfDigits (digitValues chars) = Nat.ofDigitChars 10 chars 0 := by
  rw [natOfDigits, digitValues, List.foldl_map, Nat.ofDigitChars_eq_foldl]

theorem zeroPad_toList {width n : Nat} : (zeroPad width n).toList =
    List.replicate (width - (Nat.toDigits 10 n).length) '0' ++ Nat.toDigits 10 n := by
  rw [zeroPad, String.toList_append, String.toList_ofList, Nat.toString_eq_ofList_toDigits,
    String.length_ofList, String.toList_ofList]

theorem zeroPad_isDigit {width n : Nat} {c : Char} (h : c ∈ (zeroPad width n).toList) : c.isDigit := by
  rw [zeroPad_toList, List.mem_append, List.mem_replicate] at h
  rcases h with ⟨-, rfl⟩ | h
  · decide
  · exact Nat.isDigit_of_mem_toDigits (by decide) (by decide) h

theorem zeroPad_value (width n : Nat) : Nat.ofDigitChars 10 (zeroPad width n).toList 0 = n := by
  rw [zeroPad_toList, Nat.ofDigitChars_append, Nat.ofDigitChars_replicate_zero, Nat.mul_zero,
    Nat.ofDigitChars_ten_toDigits]

theorem zeroPad_length {width n : Nat} (hw : 0 < width) (h : n < 10 ^ width) :
    (zeroPad width n).toList.length = width := by
  have hlen := (Nat.length_toDigits_le_iff (b := 10) (by decide) hw).mpr h
  rw [zeroPad_toList, List.length_append, List.length_replicate]
  omega

theorem zeroPad_two {n : Nat} (h : n < 10 ^ 2) : ∃ tens units : Char,
    (zeroPad 2 n).toList = [tens, units] ∧ tens.isDigit ∧ units.isDigit ∧
      n = 10 * (tens.toNat - '0'.toNat) + (units.toNat - '0'.toNat) := by
  have hlen : (zeroPad 2 n).toList.length = 2 := zeroPad_length (by decide) h
  have hdigits : ∀ c ∈ (zeroPad 2 n).toList, c.isDigit := fun c hc => zeroPad_isDigit hc
  have hvalue := zeroPad_value 2 n
  match hchars : (zeroPad 2 n).toList, hlen with
  | [tens, units], _ =>
    rw [hchars] at hdigits hvalue
    refine ⟨tens, units, rfl, hdigits tens (by simp), hdigits units (by simp), ?_⟩
    simpa [Nat.ofDigitChars_cons] using hvalue.symm

theorem zeroPad_of_le (width : Nat) {n : Nat} (h : 10 ^ (width - 1) ≤ n) : zeroPad width n = toString n := by
  have hlen : width ≤ (Nat.toDigits 10 n).length := by
    refine Nat.not_lt.mp fun hshort => ?_
    have hpos := Nat.length_toDigits_pos (b := 10) (n := n)
    have hlt := (Nat.length_toDigits_le_iff (b := 10) (n := n) (k := width - 1) (by decide)
      (by omega)).mp (by omega)
    omega
  rw [← String.toList_inj, zeroPad_toList, Nat.sub_eq_zero_of_le hlen, Nat.toString_eq_ofList_toDigits,
    String.toList_ofList]
  rfl

theorem toString_int (n : Int) :
    (toString n).toList = (if n < 0 then ['-'] else []) ++ Nat.toDigits 10 n.natAbs := by
  cases n with
  | ofNat n =>
    rw [if_neg (by simp)]
    exact Nat.toList_repr
  | negSucc n =>
    rw [if_pos (Int.negSucc_lt_zero n)]
    have htext : toString (Int.negSucc n) = "-" ++ Nat.repr (n + 1) := rfl
    rw [htext, String.toList_append, Nat.toList_repr]
    rfl

theorem toString_chars {n : Int} {c : Char} (hc : c ∈ (toString n).toList) : c.isDigit ∨ c = '-' := by
  rw [toString_int, List.mem_append] at hc
  rcases hc with hc | hc
  · split at hc
    · exact .inr (List.mem_singleton.mp hc)
    · cases hc
  · exact .inl (Nat.isDigit_of_mem_toDigits (b := 10) (n := n.natAbs) (by decide) (by decide) hc)

theorem toDigits_inj {n m : Nat} : Nat.toDigits 10 n = Nat.toDigits 10 m ↔ n = m := by
  refine ⟨fun h => ?_, fun h => by rw [h]⟩
  rw [← Nat.ofDigitChars_ten_toDigits (n := n), h, Nat.ofDigitChars_ten_toDigits]

theorem minus_notMem_toDigits {n : Nat} : '-' ∉ Nat.toDigits 10 n := fun h =>
  absurd (Nat.isDigit_of_mem_toDigits (by decide) (by decide) h) (by decide)

theorem toString_int_inj {n m : Int} : toString n = toString m ↔ n = m := by
  refine ⟨fun h => ?_, fun h => by rw [h]⟩
  rw [← String.toList_inj, toString_int, toString_int] at h
  by_cases hn : n < 0
  · by_cases hm : m < 0
    · rw [if_pos hn, if_pos hm, List.append_cancel_left_eq, toDigits_inj] at h
      omega
    · rw [if_pos hn, if_neg hm, List.nil_append] at h
      exact absurd (by simp) (h ▸ minus_notMem_toDigits)
  · by_cases hm : m < 0
    · rw [if_neg hn, if_pos hm, List.nil_append] at h
      exact absurd (by simp) (h ▸ minus_notMem_toDigits)
    · rw [if_neg hn, if_neg hm, List.append_cancel_left_eq, toDigits_inj] at h
      omega

/-! ## What `int` reads -/

theorem decimal_table {z : Nat} (hz : z ∈ decimalZeros) :
    (∀ n ∈ whitespace, n < z ∨ z + 10 ≤ n) ∧ ∀ n ∈ ['-', '+', '_'].map Char.toNat, n < z ∨ z + 10 ≤ n := by
  have hall : decimalZeros.all (fun z => (whitespace ++ ['-', '+', '_'].map Char.toNat).all fun n =>
      n < z || z + 10 ≤ n) := by decide
  have hzero := List.all_eq_true.mp hall z hz
  simp only [List.all_eq_true, Bool.or_eq_true, decide_eq_true_eq, List.mem_append] at hzero
  exact ⟨fun n hn => hzero n (.inl hn), fun n hn => hzero n (.inr hn)⟩

theorem decimal_range {c : Char} (h : (decimal? c).isSome) :
    ∃ z ∈ decimalZeros, z ≤ c.toNat ∧ c.toNat < z + 10 := by
  rw [decimal?, Option.isSome_map, List.find?_isSome] at h
  simpa using h

theorem decimal_not_space {c : Char} (h : (decimal? c).isSome) : isSpace c = false := by
  obtain ⟨z, hz, hlo, hhi⟩ := decimal_range h
  simp only [isSpace, List.contains_eq_mem, decide_eq_false_iff_not]
  intro hmem
  have := (decimal_table hz).1 _ hmem
  omega

theorem decimal_not_sign {c : Char} (h : (decimal? c).isSome) : c ∉ ['-', '+', '_'] := by
  obtain ⟨z, hz, hlo, hhi⟩ := decimal_range h
  intro hmem
  have := (decimal_table hz).2 _ (List.mem_map_of_mem hmem)
  omega

theorem digitRun_decimal {chars : List Char} (hne : chars ≠ []) (h : ∀ c ∈ chars, (decimal? c).isSome) :
    ∃ ds, digitRun chars = some ds ∧ ds.length = chars.length := by
  fun_induction digitRun chars with
  | case1 => exact absurd rfl hne
  | case2 c =>
    obtain ⟨n, hn⟩ := Option.isSome_iff_exists.mp (h c (by simp))
    exact ⟨[n], by simp [hn], rfl⟩
  | case3 c rest => exact absurd (by simp) (decimal_not_sign (h '_' (by simp)))
  | case4 c rest hrest _ ih =>
    obtain ⟨n, hn⟩ := Option.isSome_iff_exists.mp (h c (by simp))
    obtain ⟨ds, hds, hlen⟩ := ih (by rintro rfl; exact hrest rfl) fun d hd => h d (by simp [hd])
    exact ⟨n :: ds, by simp [hn, hds], by simp [hlen]⟩

theorem int?_decimal {text : String} (hne : text ≠ "") (hlen : text.toList.length ≤ maxStrDigits)
    (h : ∀ c ∈ text.toList, (decimal? c).isSome) : ∃ n : Nat, int? text = some (n : Int) := by
  have hne' : text.toList ≠ [] := by simpa using hne
  obtain ⟨ds, hds, hdslen⟩ := digitRun_decimal hne' h
  have hsign : ∀ c ∈ text.toList, c ≠ '-' ∧ c ≠ '+' := by
    intro c hc
    have := decimal_not_sign (h c hc)
    simp_all
  unfold int?
  rw [trim_of_notSpace fun c hc => intSpace_of_notSpace (decimal_not_space (h c hc))]
  split
  · next heq => exact absurd rfl (hsign '-' (by simp [heq])).1
  · next heq => exact absurd rfl (hsign '+' (by simp [heq])).2
  · exact ⟨natOfDigits ds, by simp [hds, hdslen, hlen]⟩

/-! ## Parts of a text -/

theorem hasInfix_iff {needle chars : List Char} : hasInfix needle chars ↔ needle <:+: chars := by
  induction chars with
  | nil => simp [hasInfix]
  | cons c rest ih =>
    rw [hasInfix, Bool.or_eq_true, ih, List.isPrefixOf_iff_prefix, List.infix_cons_iff]

theorem contains_append_left {needle rest : String} : contains (needle ++ rest) needle := by
  rw [contains, hasInfix_iff, String.toList_append]
  exact (List.prefix_append _ _).isInfix

/-! ## Fields between separators -/

section Fields

variable {α : Type*} {sep : α} {front back front' back' : List α}

theorem first_field_inj (h : sep ∉ front) (h' : sep ∉ front') :
    front ++ sep :: back = front' ++ sep :: back' ↔ front = front' ∧ back = back' := by
  constructor
  · intro heq
    rcases List.append_eq_append_iff.mp heq with ⟨more, rfl, hback⟩ | ⟨more, rfl, hback⟩
    · cases more with
      | nil => simpa using hback
      | cons c more =>
        obtain ⟨rfl, -⟩ := List.cons.inj hback
        exact absurd (by simp) h'
    · cases more with
      | nil => simpa [eq_comm] using hback
      | cons c more =>
        obtain ⟨rfl, -⟩ := List.cons.inj hback
        exact absurd (by simp) h
  · rintro ⟨rfl, rfl⟩
    rfl

theorem last_field_inj (h : sep ∉ back) (h' : sep ∉ back') :
    front ++ sep :: back = front' ++ sep :: back' ↔ front = front' ∧ back = back' := by
  have hfirst : back.reverse ++ sep :: front.reverse = back'.reverse ++ sep :: front'.reverse ↔ _ :=
    first_field_inj (mt List.mem_reverse.mp h) (mt List.mem_reverse.mp h')
  rw [← List.reverse_inj]
  simpa [and_comm] using hfirst

end Fields

end PyText
