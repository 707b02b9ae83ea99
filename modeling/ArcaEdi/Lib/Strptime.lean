import ArcaEdi.Lib.PyText

/-!
# Reading a text by a format

`strptime` turns a format into a regular expression and takes its first match, which
has to end where the text ends. A directive gives what it can read in the order in
which the expression tries it. The formats have no two blanks in a row.
-/

namespace Strptime

open PyText

inductive Directive
  | year | month | day | hour | minute | second | space
  | literal (c : Char)
  deriving DecidableEq, Repr

/-! ## What a directive reads -/

/-- `[lo-hi]` -/
def inRange (lo hi : Nat) (c : Char) : Option Nat :=
  if c.isDigit ∧ lo ≤ c.toNat - '0'.toNat ∧ c.toNat - '0'.toNat ≤ hi then some (c.toNat - '0'.toNat)
  else none

def single (units : Char → Option Nat) : List Char → List (Nat × List Char)
  | u :: rest => ((units u).map (·, rest)).toList
  | [] => []

def pair (tens units : Char → Option Nat) : List Char → List (Nat × List Char)
  | t :: u :: rest => ((tens t).bind fun a => (units u).map fun b => (10 * a + b, rest)).toList
  | _ => []

/-- `\s+`, which takes all that it can first. -/
def spaces : List Char → List (Nat × List Char)
  | c :: rest => if isSpace c then spaces rest ++ [(0, rest)] else []
  | [] => []

/-- All readings of one part, the longer ones first. -/
def alternatives : Directive → List Char → List (Nat × List Char)
  | .year, a :: b :: c :: d :: rest =>
    (([a, b, c, d].mapM decimal?).map fun digits => (natOfDigits digits, rest)).toList
  | .year, _ => []
  | .month, chars =>
    pair (inRange 1 1) (inRange 0 2) chars ++ pair (inRange 0 0) (inRange 1 9) chars ++
      single (inRange 1 9) chars
  | .day, chars =>
    pair (inRange 3 3) (inRange 0 1) chars ++ pair (inRange 1 2) decimal? chars ++
      pair (inRange 0 0) (inRange 1 9) chars ++ single (inRange 1 9) chars ++
      (match chars with
        | ' ' :: rest => single (inRange 1 9) rest
        | _ => [])
  | .hour, chars =>
    pair (inRange 2 2) (inRange 0 3) chars ++ pair (inRange 0 1) decimal? chars ++ single decimal? chars
  | .minute, chars => pair (inRange 0 5) decimal? chars ++ single decimal? chars
  | .second, chars =>
    pair (inRange 6 6) (inRange 0 1) chars ++ pair (inRange 0 5) decimal? chars ++
      single decimal? chars
  | .space, chars => spaces chars
  | .literal c, chars =>
    match chars with
    | d :: rest => if d = c then [(0, rest)] else []
    | [] => []

/-! ## What a format reads -/

/-- Every way to read a text from its start, with what is left of it. -/
def readings : List Directive → List Char → List (List Nat × List Char)
  | [], chars => [([], chars)]
  | d :: format, chars =>
    (alternatives d chars).flatMap fun (value, rest) =>
      (readings format rest).map fun (values, left) => (value :: values, left)

/-- None where a `%` stands last. -/
def compile : List Char → Option (List Directive)
  | [] => some []
  | '%' :: 'Y' :: rest => (compile rest).map (.year :: ·)
  | '%' :: 'm' :: rest => (compile rest).map (.month :: ·)
  | '%' :: 'd' :: rest => (compile rest).map (.day :: ·)
  | '%' :: 'H' :: rest => (compile rest).map (.hour :: ·)
  | '%' :: 'M' :: rest => (compile rest).map (.minute :: ·)
  | '%' :: 'S' :: rest => (compile rest).map (.second :: ·)
  | '%' :: _ => none
  | c :: rest => (compile rest).map ((if isSpace c then .space else .literal c) :: ·)

/-- The values of the directives, or none where `strptime` raises ValueError. -/
def read (format : List Char) (text : List Char) : Option (List (Directive × Nat)) :=
  (compile format).bind fun directives =>
    match readings directives text with
    | (values, []) :: _ => some (directives.zip values)
    | _ => none

theorem readings_cons {d : Directive} {format : List Directive} {chars rest left : List Char}
    {value : Nat} {values : List Nat} (hd : (alternatives d chars).head? = some (value, rest))
    (h : (readings format rest).head? = some (values, left)) :
    (readings (d :: format) chars).head? = some (value :: values, left) := by
  obtain ⟨others, halternatives⟩ := List.head?_eq_some_iff.mp hd
  obtain ⟨more, hreadings⟩ := List.head?_eq_some_iff.mp h
  rw [readings, halternatives, List.flatMap_cons]
  simp only [hreadings, List.map_cons, List.cons_append, List.head?_cons]

theorem read_eq {format text : List Char} {directives : List Directive} {values : List Nat}
    (hformat : compile format = some directives)
    (h : (readings directives text).head? = some (values, [])) :
    read format text = some (directives.zip values) := by
  obtain ⟨more, hreadings⟩ := List.head?_eq_some_iff.mp h
  rw [read, hformat, Option.bind_some, hreadings]

theorem read_none {format text : List Char} {d : Directive}
    (hformat : ∀ directives, compile format = some directives → directives.head? = some d)
    (h : alternatives d text = []) : read format text = none := by
  unfold read
  cases hdirectives : compile format with
  | none => rfl
  | some directives =>
    obtain ⟨rest, rfl⟩ := List.head?_eq_some_iff.mp (hformat directives hdirectives)
    rw [Option.bind_some, readings, h]
    rfl

/-! ## Numbers that fill their place -/

section Two

variable {t u : Char} {rest : List Char} {n : Nat}

theorem inRange_eq {lo hi : Nat} (h : t.isDigit) : inRange lo hi t =
    if lo ≤ t.toNat - '0'.toNat ∧ t.toNat - '0'.toNat ≤ hi then some (t.toNat - '0'.toNat) else none := by
  simp [inRange, h]

theorem pair_inRange {a b c d : Nat} (ht : t.isDigit) (hu : u.isDigit)
    (hn : n = 10 * (t.toNat - '0'.toNat) + (u.toNat - '0'.toNat)) :
    pair (inRange a b) (inRange c d) (t :: u :: rest) =
      if (a ≤ n / 10 ∧ n / 10 ≤ b) ∧ (c ≤ n % 10 ∧ n % 10 ≤ d) then [(n, rest)] else [] := by
  have hle := decimal?_lt (decimal?_ascii hu)
  have htens : t.toNat - '0'.toNat = n / 10 := by omega
  have hunits : u.toNat - '0'.toNat = n % 10 := by omega
  have hvalue : 10 * (n / 10) + n % 10 = n := by omega
  rw [pair, inRange_eq ht, inRange_eq hu, htens, hunits]
  by_cases h : a ≤ n / 10 ∧ n / 10 ≤ b
  · by_cases h' : c ≤ n % 10 ∧ n % 10 ≤ d
    · simp [h, h', hvalue]
    · simp [h, h']
  · simp [h]

theorem pair_decimal {a b : Nat} (ht : t.isDigit) (hu : u.isDigit)
    (hn : n = 10 * (t.toNat - '0'.toNat) + (u.toNat - '0'.toNat)) :
    pair (inRange a b) decimal? (t :: u :: rest) =
      if a ≤ n / 10 ∧ n / 10 ≤ b then [(n, rest)] else [] := by
  have hle := decimal?_lt (decimal?_ascii hu)
  have htens : t.toNat - '0'.toNat = n / 10 := by omega
  have hunits : u.toNat - '0'.toNat = n % 10 := by omega
  have hvalue : 10 * (n / 10) + n % 10 = n := by omega
  rw [pair, inRange_eq ht, decimal?_ascii hu, htens, hunits]
  by_cases h : a ≤ n / 10 ∧ n / 10 ≤ b
  · simp [h, hvalue]
  · simp [h]

theorem month_head (h : 1 ≤ n ∧ n ≤ 12) :
    (alternatives .month ((zeroPad 2 n).toList ++ rest)).head? = some (n, rest) := by
  obtain ⟨t, u, heq, ht, hu, hn⟩ := zeroPad_two (n := n) (by omega)
  rw [heq]
  simp only [List.cons_append, List.nil_append, alternatives, pair_inRange ht hu hn]
  by_cases hten : 10 ≤ n
  · rw [if_pos (by omega)]
    rfl
  · rw [if_neg (by omega), if_pos (by omega)]
    rfl

theorem day_head (h : 1 ≤ n ∧ n ≤ 31) :
    (alternatives .day ((zeroPad 2 n).toList ++ rest)).head? = some (n, rest) := by
  obtain ⟨t, u, heq, ht, hu, hn⟩ := zeroPad_two (n := n) (by omega)
  rw [heq]
  simp only [List.cons_append, List.nil_append, alternatives, pair_inRange ht hu hn,
    pair_decimal ht hu hn]
  by_cases hthirty : 30 ≤ n
  · rw [if_pos (by omega)]
    rfl
  · by_cases hten : 10 ≤ n
    · rw [if_neg (by omega), if_pos (by omega)]
      rfl
    · rw [if_neg (by omega), if_neg (by omega), if_pos (by omega)]
      rfl

theorem hour_head (h : n < 24) :
    (alternatives .hour ((zeroPad 2 n).toList ++ rest)).head? = some (n, rest) := by
  obtain ⟨t, u, heq, ht, hu, hn⟩ := zeroPad_two (n := n) (by omega)
  rw [heq]
  simp only [List.cons_append, List.nil_append, alternatives, pair_inRange ht hu hn,
    pair_decimal ht hu hn]
  by_cases htwenty : 20 ≤ n
  · rw [if_pos (by omega)]
    rfl
  · rw [if_neg (by omega), if_pos (by omega)]
    rfl

theorem minute_head (h : n < 60) :
    (alternatives .minute ((zeroPad 2 n).toList ++ rest)).head? = some (n, rest) := by
  obtain ⟨t, u, heq, ht, hu, hn⟩ := zeroPad_two (n := n) (by omega)
  rw [heq]
  simp only [List.cons_append, List.nil_append, alternatives, pair_decimal ht hu hn]
  rw [if_pos (by omega)]
  rfl

theorem second_head (h : n < 60) :
    (alternatives .second ((zeroPad 2 n).toList ++ rest)).head? = some (n, rest) := by
  obtain ⟨t, u, heq, ht, hu, hn⟩ := zeroPad_two (n := n) (by omega)
  rw [heq]
  simp only [List.cons_append, List.nil_append, alternatives, pair_inRange ht hu hn,
    pair_decimal ht hu hn]
  rw [if_neg (by omega), if_pos (by omega)]
  rfl

theorem year_head (h : n < 10 ^ 4) :
    (alternatives .year ((zeroPad 4 n).toList ++ rest)).head? = some (n, rest) := by
  have hlen : (zeroPad 4 n).toList.length = 4 := zeroPad_length (by decide) h
  have hvalues := mapM_decimal? fun c (hc : c ∈ (zeroPad 4 n).toList) => zeroPad_isDigit hc
  have hvalue : natOfDigits (digitValues (zeroPad 4 n).toList) = n := by
    rw [natOfDigits_digitValues, zeroPad_value]
  match hchars : (zeroPad 4 n).toList, hlen with
  | [a, b, c, d], _ =>
    rw [hchars] at hvalues hvalue
    simp only [List.cons_append, List.nil_append, alternatives, hvalues, Option.map_some, hvalue]
    rfl

end Two

theorem literal_head {c : Char} {rest : List Char} :
    (alternatives (.literal c) (c :: rest)).head? = some (0, rest) := by simp [alternatives]

theorem space_head {c : Char} {rest : List Char} (h : isSpace c = false) :
    (alternatives .space (' ' :: c :: rest)).head? = some (0, c :: rest) := by
  have hblank : isSpace ' ' = true := by decide
  simp [alternatives, spaces, h, hblank]

end Strptime
