import Mathlib.Algebra.Order.Field.Rat
import ArcaEdi.Lib.PyText

/-!
# JSON

A writer and a reader. The writer escapes what is not printable ASCII, and a program
chooses how it writes a float. The reader takes any JSON text, but not the names that
Python gives to infinities.
-/

/-- A JSON value, as Python holds it. A float is an exact decimal. -/
inductive Json
  | null
  | bool (b : Bool)
  | int (n : Int)
  | float (x : ℚ)
  | str (s : String)
  | arr (items : List Json)
  | obj (fields : List (String × Json))

namespace Json

open PyText (toString_int)

/-- `bool(value)` -/
def truthy : Json → Bool
  | null => false
  | bool b => b
  | int n => n != 0
  | float x => x != 0
  | str s => s != ""
  | arr items => !items.isEmpty
  | obj fields => !fields.isEmpty

/-- The fields of a value that has a `get`. -/
def fields? : Json → Option (List (String × Json))
  | obj fields => some fields
  | _ => none

/-! ## Writing -/

def hexDigits : List Char := "0123456789abcdef".toList

/-- `\uXXXX` of a unit of 16 bits. -/
def unicodeEscape (n : Nat) : List Char :=
  ['\\', 'u'] ++ [n / 4096, n / 256 % 16, n / 16 % 16, n % 16].map fun d => hexDigits.getD d '0'

def escape (c : Char) : List Char :=
  if c = '"' then ['\\', '"']
  else if c = '\\' then ['\\', '\\']
  else if c = '\n' then ['\\', 'n']
  else if c = '\r' then ['\\', 'r']
  else if c = '\t' then ['\\', 't']
  else if c.toNat = 8 then ['\\', 'b']
  else if c.toNat = 12 then ['\\', 'f']
  else if 0x20 ≤ c.toNat ∧ c.toNat ≤ 0x7e then [c]
  else if c.toNat < 0x10000 then unicodeEscape c.toNat
  else unicodeEscape (0xd800 + (c.toNat - 0x10000) / 0x400) ++
    unicodeEscape (0xdc00 + (c.toNat - 0x10000) % 0x400)

def quoted (s : String) : List Char := '"' :: (s.toList.flatMap escape ++ ['"'])

mutual

/-- `json.dumps(value, separators=(",", ":"))` -/
def dumps (floatstr : ℚ → List Char) : Json → List Char
  | .null => "null".toList
  | .bool b => if b then "true".toList else "false".toList
  | .int n => (toString n).toList
  | .float x => floatstr x
  | .str s => quoted s
  | .arr items => '[' :: (dumpsItems floatstr items ++ [']'])
  | .obj fields => '{' :: (dumpsFields floatstr fields ++ ['}'])

def dumpsItems (floatstr : ℚ → List Char) : List Json → List Char
  | [] => []
  | [value] => dumps floatstr value
  | value :: rest => dumps floatstr value ++ ',' :: dumpsItems floatstr rest

def dumpsFields (floatstr : ℚ → List Char) : List (String × Json) → List Char
  | [] => []
  | [(key, value)] => quoted key ++ ':' :: dumps floatstr value
  | (key, value) :: rest => quoted key ++ ':' :: (dumps floatstr value ++ ',' :: dumpsFields floatstr rest)

end

/-! ## Reading -/

def skipSpace (chars : List Char) : List Char :=
  chars.dropWhile fun c => c = ' ' || c = '\t' || c = '\n' || c = '\r'

def hexValue? (c : Char) : Option Nat := hexDigits.idxOf? c.toLower

/-- Four hexadecimal digits. -/
def unit? : List Char → Option (Nat × List Char)
  | a :: b :: c :: d :: rest => do
    let x ← hexValue? a
    let y ← hexValue? b
    let z ← hexValue? c
    let w ← hexValue? d
    return (4096 * x + 256 * y + 16 * z + w, rest)
  | _ => none

/-- The character after a backslash. Half of a pair is no character here. -/
def escaped? : List Char → Option (Char × List Char)
  | '"' :: rest => some ('"', rest)
  | '\\' :: rest => some ('\\', rest)
  | '/' :: rest => some ('/', rest)
  | 'b' :: rest => some (Char.ofNat 8, rest)
  | 'f' :: rest => some (Char.ofNat 12, rest)
  | 'n' :: rest => some ('\n', rest)
  | 'r' :: rest => some ('\r', rest)
  | 't' :: rest => some ('\t', rest)
  | 'u' :: rest =>
    match unit? rest with
    | none => none
    | some (high, rest) =>
      if 0xd800 ≤ high ∧ high < 0xdc00 then
        match rest with
        | '\\' :: 'u' :: rest =>
          match unit? rest with
          | some (low, rest) =>
            if 0xdc00 ≤ low ∧ low < 0xe000 then
              some (Char.ofNat (0x10000 + 0x400 * (high - 0xd800) + (low - 0xdc00)), rest)
            else none
          | none => none
        | _ => none
      else if 0xdc00 ≤ high ∧ high < 0xe000 then none
      else some (Char.ofNat high, rest)
  | _ => none

/-- The rest of a string after its opening quote. -/
def string? : Nat → List Char → Option (List Char × List Char)
  | _, '"' :: rest => some ([], rest)
  | fuel + 1, '\\' :: rest => do
    let (c, rest) ← escaped? rest
    let (chars, rest) ← string? fuel rest
    return (c :: chars, rest)
  | fuel + 1, c :: rest =>
    if c.toNat < 0x20 then none
    else do
      let (chars, rest) ← string? fuel rest
      return (c :: chars, rest)
  | _, _ => none

/-- The digits after `.`, where there are any. -/
def fraction : List Char → List Char × List Char
  | '.' :: rest =>
    if rest.takeWhile Char.isDigit = [] then ([], '.' :: rest)
    else (rest.takeWhile Char.isDigit, rest.dropWhile Char.isDigit)
  | rest => ([], rest)

def sign : List Char → Bool × List Char
  | '-' :: rest => (true, rest)
  | '+' :: rest => (false, rest)
  | rest => (false, rest)

/-- The power of ten after `e`, where there is one. -/
def exponent (chars : List Char) : Option Int × List Char :=
  match chars with
  | e :: rest =>
    if e = 'e' ∨ e = 'E' then
      let (minus, after) := sign rest
      let digits := after.takeWhile Char.isDigit
      let n : Int := Nat.ofDigitChars 10 digits 0
      if digits = [] then (none, chars)
      else (some (if minus then -n else n), after.dropWhile Char.isDigit)
    else (none, chars)
  | [] => (none, [])

/-- An integer stops after a leading zero. -/
def whole : List Char → List Char × List Char
  | '0' :: rest => (['0'], rest)
  | chars => (chars.takeWhile Char.isDigit, chars.dropWhile Char.isDigit)

def negative : List Char → Bool × List Char
  | '-' :: rest => (true, rest)
  | chars => (false, chars)

/-- A number and what follows it. A point or a power of ten makes it a float. -/
def number? (chars : List Char) : Option (Json × List Char) :=
  let (minus, chars) := negative chars
  let (digits, chars) := whole chars
  let (decimals, chars) := fraction chars
  let (power, chars) := exponent chars
  if digits = [] then none
  else
    let n : Int := Nat.ofDigitChars 10 (digits ++ decimals) 0
    let signed : Int := if minus then -n else n
    if decimals = [] ∧ power = none then some (.int signed, chars)
    else some (.float (signed * (10 : ℚ) ^ (power.getD 0 - decimals.length)), chars)

mutual

/-- A value and what follows it, with fuel for the depth. -/
def value? : Nat → List Char → Option (Json × List Char)
  | 0, _ => none
  | fuel + 1, '"' :: rest => (string? fuel rest).map fun (s, rest) => (.str (String.ofList s), rest)
  | fuel + 1, '{' :: rest =>
    match skipSpace rest with
    | '}' :: rest => some (.obj [], rest)
    | rest => (fieldsOf? fuel rest).map fun (fields, rest) => (.obj fields, rest)
  | fuel + 1, '[' :: rest =>
    match skipSpace rest with
    | ']' :: rest => some (.arr [], rest)
    | rest => (items? fuel rest).map fun (items, rest) => (.arr items, rest)
  | _ + 1, 'n' :: 'u' :: 'l' :: 'l' :: rest => some (.null, rest)
  | _ + 1, 't' :: 'r' :: 'u' :: 'e' :: rest => some (.bool true, rest)
  | _ + 1, 'f' :: 'a' :: 'l' :: 's' :: 'e' :: rest => some (.bool false, rest)
  | _ + 1, chars => number? chars

/-- The items of an array up to its end. -/
def items? : Nat → List Char → Option (List Json × List Char)
  | 0, _ => none
  | fuel + 1, chars => do
    let (value, rest) ← value? fuel chars
    match skipSpace rest with
    | ',' :: rest => do
      let (items, rest) ← items? fuel (skipSpace rest)
      return (value :: items, rest)
    | ']' :: rest => return ([value], rest)
    | _ => none

/-- The fields of an object up to its end. -/
def fieldsOf? : Nat → List Char → Option (List (String × Json) × List Char)
  | fuel + 1, '"' :: rest => do
    let (key, rest) ← string? fuel rest
    match skipSpace rest with
    | ':' :: rest => do
      let (value, rest) ← value? fuel (skipSpace rest)
      match skipSpace rest with
      | ',' :: rest => do
        let (fields, rest) ← fieldsOf? fuel (skipSpace rest)
        return ((String.ofList key, value) :: fields, rest)
      | '}' :: rest => return ([(String.ofList key, value)], rest)
      | _ => none
    | _ => none
  | _, _ => none

end

/-- `json.loads`, or none where it raises ValueError. Each step takes a character. -/
def loads (text : List Char) : Option Json :=
  match value? (text.length + 1) (skipSpace text) with
  | some (value, rest) => if skipSpace rest = [] then some value else none
  | none => none

/-! ## Numbers that are read again -/

/-- Where a number ends. -/
def Ends (rest : List Char) : Prop :=
  ∀ c ∈ rest.head?, ¬ c.isDigit ∧ c ≠ '.' ∧ c ≠ 'e' ∧ c ≠ 'E'

theorem digits_until {digits rest : List Char} (h : ∀ c ∈ digits, c.isDigit)
    (hrest : ∀ c ∈ rest.head?, ¬ c.isDigit) :
    (digits ++ rest).takeWhile Char.isDigit = digits ∧ (digits ++ rest).dropWhile Char.isDigit = rest := by
  rw [List.takeWhile_append_of_pos h, List.dropWhile_append_of_pos h]
  cases rest with
  | nil => simp
  | cons c rest =>
    have hc := hrest c (by simp)
    rw [List.takeWhile_cons_of_neg hc, List.dropWhile_cons_of_neg hc, List.append_nil]
    exact ⟨rfl, rfl⟩

/-- The digits before the point: no zero leads others. -/
structure Whole (digits : List Char) : Prop where
  ne_nil : digits ≠ []
  isDigit : ∀ c ∈ digits, c.isDigit
  lead : digits.head? = some '0' → digits = ['0']

theorem whole_eq {digits rest : List Char} (h : Whole digits) (hrest : ∀ c ∈ rest.head?, ¬ c.isDigit) :
    whole (digits ++ rest) = (digits, rest) := by
  by_cases hzero : digits.head? = some '0'
  · rw [h.lead hzero]
    rfl
  · obtain ⟨htake, hdrop⟩ := digits_until h.isDigit hrest
    have hne := h.ne_nil
    unfold whole
    split
    · next heq =>
      cases digits with
      | nil => exact absurd rfl hne
      | cons c digits =>
        rw [List.cons_append] at heq
        exact absurd (congrArg some (List.cons.inj heq).1) hzero
    · rw [htake, hdrop]

theorem negative_digits {digits rest : List Char} (h : Whole digits) :
    negative (digits ++ rest) = (false, digits ++ rest) := by
  unfold negative
  split
  · next heq =>
    cases digits with
    | nil => exact absurd rfl h.ne_nil
    | cons c digits =>
      have hc := h.isDigit c (by simp)
      rw [(List.cons.inj heq).1] at hc
      exact absurd hc (by decide)
  · rfl

/-- The text of a fraction. -/
def fractionText (decimals : List Char) : List Char := if decimals = [] then [] else '.' :: decimals

theorem fraction_eq {decimals rest : List Char} (h : ∀ c ∈ decimals, c.isDigit)
    (hrest : ∀ c ∈ rest.head?, ¬ c.isDigit ∧ c ≠ '.') :
    fraction (fractionText decimals ++ rest) = (decimals, rest) := by
  unfold fractionText
  split
  · next hnil =>
    subst hnil
    unfold fraction
    split
    · next heq => exact absurd rfl (hrest '.' (by rw [List.nil_append] at heq; rw [heq]; rfl)).2
    · rfl
  · next hne =>
    obtain ⟨htake, hdrop⟩ := digits_until h fun c hc => (hrest c hc).1
    rw [List.cons_append, fraction, if_neg (by rwa [htake]), htake, hdrop]

/-- The text of a power of ten. -/
def powerText : Option Int → List Char
  | none => []
  | some n => 'e' :: (if n < 0 then '-' else '+') :: (PyText.zeroPad 2 n.natAbs).toList

theorem exponent_none {rest : List Char} (h : Ends rest) : exponent rest = (none, rest) := by
  unfold exponent
  split
  · next e rest =>
    obtain ⟨-, -, he, hE⟩ := h e (by simp)
    rw [if_neg (by simp [he, hE])]
  · rfl

theorem exponent_digits (minus : Bool) {digits rest : List Char} (hne : digits ≠ [])
    (h : ∀ c ∈ digits, c.isDigit) (hrest : Ends rest) :
    exponent ('e' :: (if minus then '-' else '+') :: (digits ++ rest)) =
      (some (if minus then -(Nat.ofDigitChars 10 digits 0 : Int) else Nat.ofDigitChars 10 digits 0),
        rest) := by
  have hsign : sign ((if minus then '-' else '+') :: (digits ++ rest)) = (minus, digits ++ rest) := by
    cases minus <;> rfl
  obtain ⟨htake, hdrop⟩ := digits_until h fun c hc => (hrest c hc).1
  unfold exponent
  simp only [hsign, htake, hdrop, hne, true_or, if_true, if_false]

theorem exponent_eq {power : Option Int} {rest : List Char} (h : Ends rest) :
    exponent (powerText power ++ rest) = (power, rest) := by
  cases power with
  | none => exact exponent_none h
  | some n =>
    have hne : (PyText.zeroPad 2 n.natAbs).toList ≠ [] := by
      rw [PyText.zeroPad_toList]
      simp [Nat.toDigits_ne_nil]
    have hdigits := exponent_digits (decide (n < 0)) hne
      (fun c hc => PyText.zeroPad_isDigit hc) h
    rw [PyText.zeroPad_value] at hdigits
    simp only [decide_eq_true_eq] at hdigits
    rw [powerText, List.cons_append, List.cons_append, hdigits]
    congr 2
    split <;> omega

theorem powerText_head (power : Option Int) {rest : List Char} (h : Ends rest) :
    ∀ c ∈ (powerText power ++ rest).head?, ¬ c.isDigit ∧ c ≠ '.' := by
  intro c hc
  cases power with
  | none => exact ⟨(h c hc).1, (h c hc).2.1⟩
  | some n =>
    obtain rfl : 'e' = c := by simpa [powerText] using hc
    decide

theorem fractionText_head {decimals tail : List Char} (h : ∀ c ∈ tail.head?, ¬ c.isDigit ∧ c ≠ '.') :
    ∀ c ∈ (fractionText decimals ++ tail).head?, ¬ c.isDigit := by
  intro c hc
  unfold fractionText at hc
  split at hc
  · exact (h c hc).1
  · obtain rfl : '.' = c := by simpa using hc
    decide

theorem number?_eq (minus : Bool) (power : Option Int) {digits decimals rest : List Char}
    (hdigits : Whole digits) (hdecimals : ∀ c ∈ decimals, c.isDigit) (hrest : Ends rest) :
    number? ((if minus then ['-'] else []) ++
        (digits ++ (fractionText decimals ++ (powerText power ++ rest)))) =
      let n : Int := Nat.ofDigitChars 10 (digits ++ decimals) 0
      let signed : Int := if minus then -n else n
      if decimals = [] ∧ power = none then some (.int signed, rest)
      else some (.float (signed * (10 : ℚ) ^ (power.getD 0 - decimals.length)), rest) := by
  have hpower := powerText_head power hrest
  have hnegative : negative ((if minus then ['-'] else []) ++
      (digits ++ (fractionText decimals ++ (powerText power ++ rest)))) =
      (minus, digits ++ (fractionText decimals ++ (powerText power ++ rest))) := by
    cases minus with
    | false =>
      rw [if_neg Bool.false_ne_true, List.nil_append]
      exact negative_digits hdigits
    | true => rfl
  unfold number?
  simp only [hnegative, whole_eq hdigits (fractionText_head hpower), fraction_eq hdecimals hpower,
    exponent_eq hrest, hdigits.ne_nil, if_false]

theorem toDigits_lead {n : Nat} (h : 0 < n) : (Nat.toDigits 10 n).head? ≠ some '0' := by
  induction n using Nat.strong_induction_on with
  | _ n ih =>
    by_cases hlt : n < 10
    · have hall : ∀ k < 10, 0 < k → Nat.digitChar k ≠ '0' := by decide
      rw [Nat.toDigits_of_lt_base hlt]
      exact fun heq => hall n hlt h (Option.some.inj heq)
    · have hhead := ih (n / 10) (by omega) (by omega)
      obtain ⟨c, rest, hdigits⟩ :=
        List.exists_cons_of_ne_nil (Nat.toDigits_ne_nil (n := n / 10) (b := 10))
      rw [Nat.toDigits_of_base_le (by decide) (by omega), hdigits]
      rw [hdigits] at hhead
      exact hhead

theorem whole_toDigits (n : Nat) : Whole (Nat.toDigits 10 n) := by
  refine ⟨Nat.toDigits_ne_nil, fun c hc => Nat.isDigit_of_mem_toDigits (by decide) (by decide) hc, ?_⟩
  intro hlead
  rcases Nat.eq_zero_or_pos n with rfl | hpos
  · rfl
  · exact absurd hlead (toDigits_lead hpos)

theorem number?_int {n : Int} {rest : List Char} (hrest : Ends rest) :
    number? ((toString n).toList ++ rest) = some (.int n, rest) := by
  have hread := number?_eq (decide (n < 0)) none (whole_toDigits n.natAbs)
    (by simp : ∀ c ∈ ([] : List Char), c.isDigit) hrest
  simp only [decide_eq_true_eq, List.append_nil, Nat.ofDigitChars_ten_toDigits, and_self, if_true,
    fractionText, powerText, List.nil_append] at hread
  rw [toString_int, List.append_assoc, hread]
  congr 3
  split <;> omega

/-! ## Objects of plain values -/

/-- Printable ASCII that the writer leaves as it is. -/
def Plain (s : String) : Prop :=
  ∀ c ∈ s.toList, 0x20 ≤ c.toNat ∧ c.toNat ≤ 0x7e ∧ c ≠ '"' ∧ c ≠ '\\'

theorem escape_plain {chars : List Char}
    (h : ∀ c ∈ chars, 0x20 ≤ c.toNat ∧ c.toNat ≤ 0x7e ∧ c ≠ '"' ∧ c ≠ '\\') :
    chars.flatMap escape = chars := by
  induction chars with
  | nil => rfl
  | cons c rest ih =>
    obtain ⟨hlow, hhigh, hquote, hslash⟩ := h c (by simp)
    have hnewline : ∀ d : Char, d.toNat < 0x20 → c ≠ d := by
      rintro d hd rfl
      omega
    have hkept : escape c = [c] := by
      unfold escape
      rw [if_neg hquote, if_neg hslash, if_neg (hnewline _ (by decide)), if_neg (hnewline _ (by decide)),
        if_neg (hnewline _ (by decide)), if_neg (by omega), if_neg (by omega), if_pos ⟨hlow, hhigh⟩]
    rw [List.flatMap_cons, hkept, ih fun d hd => h d (by simp [hd])]
    rfl

theorem string?_plain (rest : List Char) {chars : List Char} {fuel : Nat} (hfuel : chars.length ≤ fuel)
    (h : ∀ c ∈ chars, 0x20 ≤ c.toNat ∧ c.toNat ≤ 0x7e ∧ c ≠ '"' ∧ c ≠ '\\') :
    string? fuel (chars ++ '"' :: rest) = some (chars, rest) := by
  induction chars generalizing fuel with
  | nil => cases fuel <;> simp [string?]
  | cons c chars ih =>
    obtain ⟨hlow, hhigh, hquote, hslash⟩ := h c (by simp)
    cases fuel with
    | zero => simp at hfuel
    | succ fuel =>
      have hrest := ih (by simpa using hfuel : chars.length ≤ fuel) fun d hd => h d (by simp [hd])
      rw [List.cons_append, string?, if_neg (by omega), hrest]
      · rfl
      all_goals simp_all

/-- A value that is read as it was written. -/
inductive Scalar (floatstr : ℚ → List Char) : Json → Prop
  | int (n : Int) : Scalar floatstr (.int n)
  | str {s : String} (h : Plain s) : Scalar floatstr (.str s)
  | float {x : ℚ} (h : ∀ rest, Ends rest → number? (floatstr x ++ rest) = some (.float x, rest))
      (hhead : ∃ c tail, floatstr x = c :: tail ∧ (c.isDigit ∨ c = '-')) : Scalar floatstr (.float x)

theorem value?_number {fuel : Nat} {c : Char} {rest : List Char} (h : c.isDigit ∨ c = '-') :
    value? (fuel + 1) (c :: rest) = number? (c :: rest) := by
  have hne : ∀ d : Char, d.isDigit = false → d ≠ '-' → c ≠ d := by
    rintro d hdigit hminus rfl
    rcases h with h | h
    · rw [hdigit] at h
      cases h
    · exact hminus h
  have hquote := hne '"' (by decide) (by decide)
  have hbrace := hne '{' (by decide) (by decide)
  have hbracket := hne '[' (by decide) (by decide)
  have hn := hne 'n' (by decide) (by decide)
  have ht := hne 't' (by decide) (by decide)
  have hf := hne 'f' (by decide) (by decide)
  rw [value?]
  all_goals simp_all

theorem toString_head (n : Int) : ∃ c tail, (toString n).toList = c :: tail ∧ (c.isDigit ∨ c = '-') := by
  rw [toString_int]
  by_cases hneg : n < 0
  · exact ⟨'-', _, by rw [if_pos hneg]; rfl, .inr rfl⟩
  · obtain ⟨c, tail, hdigits⟩ := List.exists_cons_of_ne_nil (Nat.toDigits_ne_nil (n := n.natAbs) (b := 10))
    refine ⟨c, tail, by rw [if_neg hneg, List.nil_append, hdigits], .inl ?_⟩
    exact Nat.isDigit_of_mem_toDigits (b := 10) (n := n.natAbs) (by decide) (by decide) (by simp [hdigits])

theorem value?_scalar {floatstr : ℚ → List Char} {v : Json} (h : Scalar floatstr v) (fuel : Nat)
    (rest : List Char) (hfuel : (dumps floatstr v).length ≤ fuel) (hrest : Ends rest) :
    value? (fuel + 1) (dumps floatstr v ++ rest) = some (v, rest) := by
  cases h with
  | int n =>
    obtain ⟨c, tail, htext, hc⟩ := toString_head n
    rw [dumps]
    rw [htext, List.cons_append, value?_number hc, ← List.cons_append, ← htext, number?_int hrest]
  | @float x h hhead =>
    obtain ⟨c, tail, htext, hc⟩ := hhead
    rw [dumps, htext, List.cons_append, value?_number hc, ← List.cons_append, ← htext, h rest hrest]
  | @str s h =>
    rw [dumps, quoted, escape_plain h] at hfuel ⊢
    have hlen : s.toList.length ≤ fuel := by
      simp only [List.length_cons, List.length_append] at hfuel
      omega
    have hread := string?_plain rest hlen h
    rw [List.cons_append, List.append_assoc, List.singleton_append, value?, hread, Option.map_some]
    simp only [String.ofList_toList]

theorem skipSpace_cons {c : Char} {rest : List Char} (h : c.isDigit ∨ c ∈ ['-', '"', ':', ',', '}', '{']) :
    skipSpace (c :: rest) = c :: rest := by
  unfold skipSpace
  rw [List.dropWhile_cons_of_neg]
  rcases h with h | h
  · have hne : ∀ d : Char, d.isDigit = false → c ≠ d := by
      rintro d hdigit rfl
      rw [hdigit] at h
      cases h
    simp [hne ' ' (by decide), hne '\t' (by decide), hne '\n' (by decide), hne '\r' (by decide)]
  · simp only [List.mem_cons, List.not_mem_nil, or_false] at h
    rcases h with rfl | rfl | rfl | rfl | rfl | rfl <;> decide

theorem dumps_head {floatstr : ℚ → List Char} {v : Json} (h : Scalar floatstr v) :
    ∃ c tail, dumps floatstr v = c :: tail ∧ (c.isDigit ∨ c ∈ ['-', '"', ':', ',', '}', '{']) := by
  cases h with
  | int n =>
    obtain ⟨c, tail, htext, hc⟩ := toString_head n
    exact ⟨c, tail, by rw [dumps, htext], hc.imp_right (by rintro rfl; decide)⟩
  | @float x h hhead =>
    obtain ⟨c, tail, htext, hc⟩ := hhead
    exact ⟨c, tail, by rw [dumps, htext], hc.imp_right (by rintro rfl; decide)⟩
  | @str s h => exact ⟨'"', _, by rw [dumps, quoted], .inr (by decide)⟩

/-- The name of a field, and its value, are read as they were written. -/
def PlainField (floatstr : ℚ → List Char) (field : String × Json) : Prop :=
  Plain field.1 ∧ Scalar floatstr field.2

theorem dumpsFields_head (floatstr : ℚ → List Char) (field : String × Json)
    (more : List (String × Json)) : ∃ tail, dumpsFields floatstr (field :: more) = '"' :: tail := by
  cases more <;> exact ⟨_, rfl⟩

theorem fieldsOf?_field {floatstr : ℚ → List Char} {key : String} {value : Json}
    (h : PlainField floatstr (key, value)) {fuel : Nat} {after : List Char}
    (hfuel : key.toList.length + (dumps floatstr value).length ≤ fuel) (hafter : Ends after) :
    fieldsOf? (fuel + 2) (quoted key ++ ':' :: (dumps floatstr value ++ after)) =
      match skipSpace after with
      | ',' :: rest =>
        (fieldsOf? (fuel + 1) (skipSpace rest)).map fun (fields, rest) => ((key, value) :: fields, rest)
      | '}' :: rest => some ([(key, value)], rest)
      | _ => none := by
  obtain ⟨hkey, hvalue⟩ : Plain key ∧ Scalar floatstr value := h
  obtain ⟨c, tail, htext, hc⟩ := dumps_head hvalue
  have hname : quoted key = '"' :: (key.toList ++ ['"']) := by rw [quoted, escape_plain hkey]
  have hskip : skipSpace (dumps floatstr value ++ after) = dumps floatstr value ++ after := by
    rw [htext, List.cons_append, skipSpace_cons hc]
  have hstring := string?_plain (':' :: (dumps floatstr value ++ after))
    (by omega : key.toList.length ≤ fuel + 1) hkey
  have hread := value?_scalar hvalue fuel after (by omega) hafter
  simp only [hname, List.cons_append, List.append_assoc, List.nil_append, fieldsOf?]
  rw [hstring]
  simp only [Option.bind_eq_bind, Option.bind_some, skipSpace_cons (c := ':') (.inr (by decide)),
    hskip, hread, String.ofList_toList]
  split
  · simp only [Option.map_eq_bind]
    rfl
  · rfl
  · rfl

theorem fieldsOf?_dumps {floatstr : ℚ → List Char} {fields : List (String × Json)} (hne : fields ≠ [])
    (h : ∀ field ∈ fields, PlainField floatstr field) {fuel : Nat} {rest : List Char}
    (hfuel : (dumpsFields floatstr fields).length ≤ fuel) :
    fieldsOf? fuel (dumpsFields floatstr fields ++ '}' :: rest) = some (fields, rest) := by
  induction fields generalizing fuel with
  | nil => exact absurd rfl hne
  | cons field more ih =>
    obtain ⟨key, value⟩ := field
    have hfield : PlainField floatstr (key, value) := h (key, value) (by simp)
    have hname : (quoted key).length = key.toList.length + 2 := by
      simp [quoted, escape_plain hfield.1]
    cases more with
    | nil =>
      simp only [dumpsFields, hname, List.length_append, List.length_cons] at hfuel
      obtain ⟨f, rfl⟩ : ∃ f, fuel = f + 2 := ⟨fuel - 2, by omega⟩
      simp only [dumpsFields, List.cons_append, List.append_assoc]
      rw [fieldsOf?_field hfield (by omega) (by simp [Ends]), skipSpace_cons (.inr (by decide))]
      rfl
    | cons next more =>
      simp only [dumpsFields, hname, List.length_append, List.length_cons] at hfuel
      obtain ⟨f, rfl⟩ : ∃ f, fuel = f + 2 := ⟨fuel - 2, by omega⟩
      obtain ⟨tail, hquote⟩ := dumpsFields_head floatstr next more
      have hfields := ih (by simp) (fun field hfield => h field (by simp [hfield]))
        (by omega : (dumpsFields floatstr (next :: more)).length ≤ f + 1)
      have hmore : skipSpace (dumpsFields floatstr (next :: more) ++ '}' :: rest) =
          dumpsFields floatstr (next :: more) ++ '}' :: rest := by
        rw [hquote, List.cons_append, skipSpace_cons (.inr (by decide))]
      simp only [dumpsFields, List.cons_append, List.append_assoc]
      rw [fieldsOf?_field hfield (by omega) (by simp [Ends]), skipSpace_cons (.inr (by decide))]
      simp only [hmore, hfields, Option.map_some]

/-- An object of plain names and values is read as it was written. -/
theorem loads_dumps {floatstr : ℚ → List Char} {fields : List (String × Json)} (hne : fields ≠ [])
    (h : ∀ field ∈ fields, PlainField floatstr field) :
    loads (dumps floatstr (.obj fields)) = some (.obj fields) := by
  obtain ⟨first, more, rfl⟩ := List.exists_cons_of_ne_nil hne
  obtain ⟨tail, hquote⟩ := dumpsFields_head floatstr first more
  generalize hfields : first :: more = fields at *
  have hread : fieldsOf? ((dumpsFields floatstr fields).length + 2) ('"' :: (tail ++ ['}'])) =
      some (fields, []) := by
    rw [← List.cons_append, ← hquote]
    exact fieldsOf?_dumps hne h (by omega)
  have hskip : skipSpace (dumpsFields floatstr fields ++ ['}']) = '"' :: (tail ++ ['}']) := by
    rw [hquote, List.cons_append, skipSpace_cons (.inr (by decide))]
  have hvalue : value? ((dumpsFields floatstr fields).length + 3)
      ('{' :: (dumpsFields floatstr fields ++ ['}'])) = some (.obj fields, []) := by
    rw [value?, hskip]
    exact congrArg (Option.map fun x => (Json.obj x.1, x.2)) hread
  have hlen : ('{' :: (dumpsFields floatstr fields ++ ['}'])).length + 1 =
      (dumpsFields floatstr fields).length + 3 := by simp
  rw [loads, dumps, skipSpace_cons (.inr (by decide)), hlen, hvalue]
  rfl

/-! ### The characters of an object -/

theorem quoted_chars {p : Char → Prop} (hquote : p '"') {s : String} (hplain : Plain s)
    (h : ∀ c ∈ s.toList, p c) {c : Char} (hc : c ∈ quoted s) : p c := by
  rw [quoted, escape_plain hplain, List.mem_cons, List.mem_append, List.mem_singleton] at hc
  rcases hc with rfl | hc | rfl
  · exact hquote
  · exact h c hc
  · exact hquote

theorem dumps_chars {p : Char → Prop} {floatstr : ℚ → List Char} {fields : List (String × Json)}
    (hsigns : ∀ c ∈ ['{', '}', '"', ':', ','], p c)
    (h : ∀ field ∈ fields, (∀ c ∈ quoted field.1, p c) ∧ ∀ c ∈ dumps floatstr field.2, p c) :
    ∀ c ∈ dumps floatstr (.obj fields), p c := by
  suffices hfields : ∀ c ∈ dumpsFields floatstr fields, p c by
    intro c hc
    rw [dumps, List.mem_cons, List.mem_append, List.mem_singleton] at hc
    rcases hc with rfl | hc | rfl
    · exact hsigns _ (by simp)
    · exact hfields c hc
    · exact hsigns _ (by simp)
  induction fields with
  | nil => simp [dumpsFields]
  | cons field more ih =>
    obtain ⟨key, value⟩ := field
    obtain ⟨hkey, hvalue⟩ := h (key, value) (by simp)
    have hmore := ih fun field hfield => h field (by simp [hfield])
    intro c hc
    cases more with
    | nil =>
      rw [dumpsFields, List.mem_append, List.mem_cons] at hc
      rcases hc with hc | rfl | hc
      · exact hkey c hc
      · exact hsigns _ (by simp)
      · exact hvalue c hc
    | cons next more =>
      simp only [dumpsFields, List.mem_append, List.mem_cons] at hc
      rcases hc with hc | rfl | hc | rfl | hc
      · exact hkey c hc
      · exact hsigns _ (by simp)
      · exact hvalue c hc
      · exact hsigns _ (by simp)
      · exact hmore c hc

end Json
