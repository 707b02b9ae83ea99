import ArcaEdi.Lib.Json

/-!
# JSON over several lines

The writer that indents, of values within values and of any string. What it writes is
read again as the value, so its text says which value it was.
-/

namespace Json

/-! ## Writing -/

/-- A new line, at a level of the indentation. -/
def newline (indent level : Nat) : List Char := '\n' :: List.replicate (indent * level) ' '

mutual

/-- `json.dumps(value, indent=indent)`, of a value that stands at a level. -/
def pretty (floatstr : ℚ → List Char) (indent level : Nat) : Json → List Char
  | .null => "null".toList
  | .bool b => if b then "true".toList else "false".toList
  | .int n => (toString n).toList
  | .float x => floatstr x
  | .str s => quoted s
  | .arr [] => "[]".toList
  | .arr items =>
    '[' :: (prettyItems floatstr indent (level + 1) items ++ (newline indent level ++ [']']))
  | .obj [] => "{}".toList
  | .obj fields =>
    '{' :: (prettyFields floatstr indent (level + 1) fields ++ (newline indent level ++ ['}']))

/-- The items of an array, each on a line. -/
def prettyItems (floatstr : ℚ → List Char) (indent level : Nat) : List Json → List Char
  | [] => []
  | [value] => newline indent level ++ pretty floatstr indent level value
  | value :: rest => newline indent level ++
    (pretty floatstr indent level value ++ ',' :: prettyItems floatstr indent level rest)

/-- The fields of an object, each on a line. -/
def prettyFields (floatstr : ℚ → List Char) (indent level : Nat) :
    List (String × Json) → List Char
  | [] => []
  | [(key, value)] => newline indent level ++
    (quoted key ++ ':' :: ' ' :: pretty floatstr indent level value)
  | (key, value) :: rest => newline indent level ++
    (quoted key ++ ':' :: ' ' :: (pretty floatstr indent level value ++
      ',' :: prettyFields floatstr indent level rest))

end

/-! ## Any string -/

theorem hexValue?_digit : ∀ d < 16, hexValue? (hexDigits.getD d '0') = some d := by decide

/-- The four digits of a unit of 16 bits. -/
def unitText (n : Nat) : List Char :=
  [n / 4096, n / 256 % 16, n / 16 % 16, n % 16].map fun d => hexDigits.getD d '0'

theorem unicodeEscape_eq (n : Nat) : unicodeEscape n = '\\' :: 'u' :: unitText n := rfl

theorem unit?_unitText {n : Nat} (h : n < 0x10000) (rest : List Char) :
    unit? (unitText n ++ rest) = some (n, rest) := by
  simp only [unitText, List.map_cons, List.map_nil, List.cons_append, List.nil_append, unit?]
  rw [hexValue?_digit _ (by omega), hexValue?_digit _ (by omega), hexValue?_digit _ (by omega),
    hexValue?_digit _ (by omega)]
  simp only [Option.bind_eq_bind, Option.bind_some, Option.pure_def, Option.some.injEq, Prod.mk.injEq,
    and_true]
  omega

theorem toNat_valid (c : Char) : c.toNat < 0xd800 ∨ 0xdfff < c.toNat ∧ c.toNat < 0x110000 := c.valid

theorem escaped?_unit {c : Char} (h : c.toNat < 0x10000) (rest : List Char) :
    escaped? ('u' :: (unitText c.toNat ++ rest)) = some (c, rest) := by
  have hvalid := toNat_valid c
  simp only [escaped?, unit?_unitText h]
  rw [if_neg (by omega), if_neg (by omega), Char.ofNat_toNat]

theorem escaped?_pair {c : Char} (h : ¬ c.toNat < 0x10000) (rest : List Char) :
    escaped? ('u' :: (unitText (0xd800 + (c.toNat - 0x10000) / 0x400) ++
      ('\\' :: 'u' :: (unitText (0xdc00 + (c.toNat - 0x10000) % 0x400) ++ rest)))) = some (c, rest) := by
  have hvalid := toNat_valid c
  have hc : 0x10000 + 0x400 * (0xd800 + (c.toNat - 0x10000) / 0x400 - 0xd800) +
      (0xdc00 + (c.toNat - 0x10000) % 0x400 - 0xdc00) = c.toNat := by omega
  have hhigh : 0xd800 + (c.toNat - 0x10000) / 0x400 < 0x10000 := by omega
  have hlow : 0xdc00 + (c.toNat - 0x10000) % 0x400 < 0x10000 := by omega
  simp only [escaped?, unit?_unitText hhigh, unit?_unitText hlow]
  rw [if_pos (by omega), if_pos (by omega), hc, Char.ofNat_toNat]

theorem escape_cases (c : Char) (rest : List Char) :
    escape c = [c] ∧ c ≠ '"' ∧ c ≠ '\\' ∧ 0x20 ≤ c.toNat ∨
      ∃ tail, escape c = '\\' :: tail ∧ escaped? (tail ++ rest) = some (c, rest) := by
  have hnamed : ∀ {n : Nat}, c.toNat = n → c = Char.ofNat n := fun h => by rw [← h, Char.ofNat_toNat]
  unfold escape
  split
  · next h => exact .inr ⟨_, rfl, by rw [h]; rfl⟩
  next hquote =>
  split
  · next h => exact .inr ⟨_, rfl, by rw [h]; rfl⟩
  next hslash =>
  split
  · next h => exact .inr ⟨_, rfl, by rw [h]; rfl⟩
  split
  · next h => exact .inr ⟨_, rfl, by rw [h]; rfl⟩
  split
  · next h => exact .inr ⟨_, rfl, by rw [h]; rfl⟩
  split
  · next h => exact .inr ⟨_, rfl, by rw [hnamed h]; rfl⟩
  split
  · next h => exact .inr ⟨_, rfl, by rw [hnamed h]; rfl⟩
  split
  · next h => exact .inl ⟨rfl, hquote, hslash, h.1⟩
  split
  · next h => exact .inr ⟨_, unicodeEscape_eq _, escaped?_unit h rest⟩
  · next h =>
    refine .inr ⟨'u' :: (unitText _ ++ '\\' :: 'u' :: unitText _), rfl, ?_⟩
    rw [List.cons_append, List.append_assoc]
    exact escaped?_pair h rest

theorem escape_ne_nil (c : Char) : escape c ≠ [] := by
  rcases escape_cases c [] with ⟨h, -⟩ | ⟨tail, h, -⟩
  · simp [h]
  · simp [h]

theorem string?_escape (c : Char) (fuel : Nat) (rest : List Char) :
    string? (fuel + 1) (escape c ++ rest) =
      (string? fuel rest).map fun (chars, rest) => (c :: chars, rest) := by
  rcases escape_cases c rest with ⟨hself, hquote, hslash, hlow⟩ | ⟨tail, htext, hread⟩
  · rw [hself, List.singleton_append, string?, if_neg (by omega)]
    · simp only [Option.map_eq_bind]
      rfl
    all_goals simp_all
  · rw [htext, List.cons_append, string?, hread]
    simp only [Option.bind_eq_bind, Option.bind_some, Option.map_eq_bind]
    rfl

theorem string?_quoted (rest : List Char) {chars : List Char} {fuel : Nat}
    (hfuel : (chars.flatMap escape).length ≤ fuel) :
    string? fuel (chars.flatMap escape ++ '"' :: rest) = some (chars, rest) := by
  induction chars generalizing fuel with
  | nil => cases fuel <;> simp [string?]
  | cons c chars ih =>
    have hone := List.length_pos_iff.mpr (escape_ne_nil c)
    rw [List.flatMap_cons, List.length_append] at hfuel
    obtain ⟨f, rfl⟩ : ∃ f, fuel = f + 1 := ⟨fuel - 1, by omega⟩
    rw [List.flatMap_cons, List.append_assoc, string?_escape, ih (by omega), Option.map_some]

/-! ## Values -/

/-- A value of numbers that are read as they are written. -/
inductive Readable (floatstr : ℚ → List Char) : Json → Prop
  | null : Readable floatstr .null
  | bool (b : Bool) : Readable floatstr (.bool b)
  | int (n : Int) : Readable floatstr (.int n)
  | float {x : ℚ} (h : Scalar floatstr (.float x)) : Readable floatstr (.float x)
  | str (s : String) : Readable floatstr (.str s)
  | arr {items : List Json} (h : ∀ v ∈ items, Readable floatstr v) : Readable floatstr (.arr items)
  | obj {fields : List (String × Json)} (h : ∀ field ∈ fields, Readable floatstr field.2) :
      Readable floatstr (.obj fields)

section Reading

variable {floatstr : ℚ → List Char} {indent : Nat}

/-- What a value starts with. -/
def Opens (c : Char) : Prop := c.isDigit ∨ c ∈ ['-', '"', '[', '{', 'n', 't', 'f']

theorem Opens.ne {c d : Char} (h : Opens c) (hdigit : d.isDigit = false)
    (hd : d ∉ ['-', '"', '[', '{', 'n', 't', 'f']) : c ≠ d := by
  rintro rfl
  rcases h with h | h
  · rw [hdigit] at h
    cases h
  · exact hd h

theorem Opens.skipSpace {c : Char} (h : Opens c) (rest : List Char) :
    skipSpace (c :: rest) = c :: rest := by
  unfold Json.skipSpace
  rw [List.dropWhile_cons_of_neg]
  simp [h.ne (d := ' ') (by decide) (by decide), h.ne (d := '\t') (by decide) (by decide),
    h.ne (d := '\n') (by decide) (by decide), h.ne (d := '\r') (by decide) (by decide)]

theorem skipSpace_newline (indent level : Nat) (rest : List Char) :
    skipSpace (newline indent level ++ rest) = skipSpace rest := by
  unfold skipSpace newline
  rw [List.dropWhile_append_of_pos]
  intro c hc
  rcases List.mem_cons.mp hc with rfl | hc
  · decide
  · rw [List.eq_of_mem_replicate hc]
    decide

theorem newline_ends (indent level : Nat) (rest : List Char) : Ends (newline indent level ++ rest) := by
  simp [Ends, newline]

theorem pretty_head {v : Json} (h : Readable floatstr v) (indent level : Nat) :
    ∃ c tail, pretty floatstr indent level v = c :: tail ∧ Opens c := by
  cases h with
  | null => exact ⟨'n', _, rfl, .inr (by decide)⟩
  | bool b => cases b <;> exact ⟨_, _, rfl, .inr (by decide)⟩
  | int n =>
    obtain ⟨c, tail, htext, hc⟩ := toString_head n
    exact ⟨c, tail, by rw [pretty, htext], hc.imp_right (by rintro rfl; decide)⟩
  | float h =>
    cases h with
    | float _ hhead =>
      obtain ⟨c, tail, htext, hc⟩ := hhead
      exact ⟨c, tail, by rw [pretty, htext], hc.imp_right (by rintro rfl; decide)⟩
  | str s => exact ⟨'"', _, rfl, .inr (by decide)⟩
  | @arr items _ => cases items <;> exact ⟨'[', _, rfl, .inr (by decide)⟩
  | @obj fields _ => cases fields <;> exact ⟨'{', _, rfl, .inr (by decide)⟩

/-- A value is read as it was written, at whatever level and before whatever ends it. -/
def Reads (floatstr : ℚ → List Char) (indent : Nat) (v : Json) : Prop :=
  ∀ level fuel rest, (pretty floatstr indent level v).length ≤ fuel → Ends rest →
    value? fuel (pretty floatstr indent level v ++ rest) = some (v, rest)

theorem pretty_skip {v : Json} (h : Readable floatstr v) (indent level : Nat) (rest : List Char) :
    skipSpace (pretty floatstr indent level v ++ rest) = pretty floatstr indent level v ++ rest := by
  obtain ⟨c, tail, htext, hc⟩ := pretty_head h indent level
  rw [htext, List.cons_append, hc.skipSpace]

theorem pretty_pos {v : Json} (h : Readable floatstr v) (indent level : Nat) :
    1 ≤ (pretty floatstr indent level v).length := by
  obtain ⟨c, tail, htext, -⟩ := pretty_head h indent level
  rw [htext, List.length_cons]
  omega

theorem prettyItems_cons (level : Nat) (v next : Json) (more : List Json) :
    prettyItems floatstr indent level (v :: next :: more) = newline indent level ++
      (pretty floatstr indent level v ++ ',' :: prettyItems floatstr indent level (next :: more)) := by
  rw [prettyItems]
  simp

theorem prettyFields_cons (level : Nat) (key : String) (v : Json) (next : String × Json)
    (more : List (String × Json)) :
    prettyFields floatstr indent level ((key, v) :: next :: more) = newline indent level ++
      (quoted key ++ ':' :: ' ' :: (pretty floatstr indent level v ++
        ',' :: prettyFields floatstr indent level (next :: more))) := by
  rw [prettyFields]
  simp

theorem skipSpace_comma (rest : List Char) : skipSpace (',' :: rest) = ',' :: rest := rfl

theorem items?_comma {v : Json} (h : Readable floatstr v) (hreads : Reads floatstr indent v)
    {level fuel : Nat} {rest after : List Char} {items : List Json}
    (hfuel : (pretty floatstr indent level v).length ≤ fuel)
    (hmore : items? fuel (skipSpace rest) = some (items, after)) :
    items? (fuel + 1)
        (skipSpace (newline indent level ++ (pretty floatstr indent level v ++ ',' :: rest))) =
      some (v :: items, after) := by
  rw [skipSpace_newline, pretty_skip h, items?, hreads level fuel (',' :: rest) hfuel (by simp [Ends])]
  simp only [Option.bind_eq_bind, Option.bind_some, skipSpace_comma, hmore, Option.pure_def]

theorem items?_last {v : Json} (h : Readable floatstr v) (hreads : Reads floatstr indent v)
    {level fuel : Nat} (outer : Nat) (rest : List Char)
    (hfuel : (pretty floatstr indent level v).length ≤ fuel) :
    items? (fuel + 1) (skipSpace (newline indent level ++
        (pretty floatstr indent level v ++ (newline indent outer ++ ']' :: rest)))) =
      some ([v], rest) := by
  have hbracket : skipSpace (']' :: rest) = ']' :: rest := rfl
  rw [skipSpace_newline, pretty_skip h, items?, hreads level fuel _ hfuel (newline_ends _ _ _)]
  simp only [Option.bind_eq_bind, Option.bind_some, skipSpace_newline, hbracket, Option.pure_def]

theorem items?_pretty {items : List Json} (hne : items ≠ []) (h : ∀ v ∈ items, Readable floatstr v)
    (hreads : ∀ v ∈ items, Reads floatstr indent v) {level fuel : Nat} (outer : Nat)
    (rest : List Char) (hfuel : (prettyItems floatstr indent level items).length ≤ fuel) :
    items? fuel (skipSpace (prettyItems floatstr indent level items ++
      (newline indent outer ++ ']' :: rest))) = some (items, rest) := by
  induction items generalizing fuel with
  | nil => exact absurd rfl hne
  | cons v more ih =>
    have hone := pretty_pos (h v (by simp)) indent level
    cases more with
    | nil =>
      simp only [prettyItems, newline, List.length_append, List.length_cons] at hfuel
      obtain ⟨f, rfl⟩ : ∃ f, fuel = f + 1 := ⟨fuel - 1, by omega⟩
      rw [prettyItems, List.append_assoc]
      exact items?_last (h v (by simp)) (hreads v (by simp)) outer rest (by omega)
    | cons next more =>
      rw [prettyItems_cons, List.length_append, List.length_append, List.length_cons] at hfuel
      obtain ⟨f, rfl⟩ : ∃ f, fuel = f + 1 := ⟨fuel - 1, by omega⟩
      have hmore := ih (by simp) (fun v hv => h v (by simp [hv])) (fun v hv => hreads v (by simp [hv]))
        (by omega : (prettyItems floatstr indent level (next :: more)).length ≤ f)
      rw [prettyItems_cons, List.append_assoc, List.append_assoc, List.cons_append]
      exact items?_comma (h v (by simp)) (hreads v (by simp)) (by omega) hmore

theorem field_read (key : String) {v : Json} (h : Readable floatstr v)
    (hreads : Reads floatstr indent v) {level fuel : Nat} {after : List Char}
    (hfuel : (key.toList.flatMap escape).length + (pretty floatstr indent level v).length ≤ fuel)
    (hafter : Ends after) :
    string? fuel (key.toList.flatMap escape ++
        '"' :: ':' :: ' ' :: (pretty floatstr indent level v ++ after)) =
      some (key.toList, ':' :: ' ' :: (pretty floatstr indent level v ++ after)) ∧
    value? fuel (skipSpace (' ' :: (pretty floatstr indent level v ++ after))) = some (v, after) := by
  have hblank : ∀ tail, skipSpace (' ' :: tail) = skipSpace tail := fun _ => rfl
  rw [hblank, pretty_skip h]
  exact ⟨string?_quoted _ (by omega), hreads level fuel after (by omega) hafter⟩

theorem skipSpace_quoted (indent level : Nat) (key : String) (rest : List Char) :
    skipSpace (newline indent level ++ (quoted key ++ rest)) =
      '"' :: (key.toList.flatMap escape ++ '"' :: rest) := by
  rw [skipSpace_newline, quoted, List.cons_append, List.append_assoc]
  rfl

theorem fieldsOf?_comma (key : String) {v : Json} (h : Readable floatstr v)
    (hreads : Reads floatstr indent v) {level fuel : Nat} {rest after : List Char}
    {fields : List (String × Json)}
    (hfuel : (key.toList.flatMap escape).length + (pretty floatstr indent level v).length ≤ fuel)
    (hmore : fieldsOf? fuel (skipSpace rest) = some (fields, after)) :
    fieldsOf? (fuel + 1) (skipSpace (newline indent level ++
        (quoted key ++ ':' :: ' ' :: (pretty floatstr indent level v ++ ',' :: rest)))) =
      some ((key, v) :: fields, after) := by
  have hcolon : ∀ tail, skipSpace (':' :: tail) = ':' :: tail := fun _ => rfl
  obtain ⟨hkey, hvalue⟩ := field_read key h hreads hfuel (by simp [Ends] : Ends (',' :: rest))
  rw [skipSpace_quoted, fieldsOf?, hkey]
  simp only [Option.bind_eq_bind, Option.bind_some, hcolon, hvalue, skipSpace_comma, hmore,
    String.ofList_toList, Option.pure_def]

theorem fieldsOf?_last (key : String) {v : Json} (h : Readable floatstr v)
    (hreads : Reads floatstr indent v) {level fuel : Nat} (outer : Nat) (rest : List Char)
    (hfuel : (key.toList.flatMap escape).length + (pretty floatstr indent level v).length ≤ fuel) :
    fieldsOf? (fuel + 1) (skipSpace (newline indent level ++ (quoted key ++
        ':' :: ' ' :: (pretty floatstr indent level v ++ (newline indent outer ++ '}' :: rest))))) =
      some ([(key, v)], rest) := by
  have hcolon : ∀ tail, skipSpace (':' :: tail) = ':' :: tail := fun _ => rfl
  have hbrace : skipSpace ('}' :: rest) = '}' :: rest := rfl
  obtain ⟨hkey, hvalue⟩ := field_read key h hreads hfuel (newline_ends indent outer ('}' :: rest))
  rw [skipSpace_quoted, fieldsOf?, hkey]
  simp only [Option.bind_eq_bind, Option.bind_some, hcolon, hvalue, skipSpace_newline, hbrace,
    String.ofList_toList, Option.pure_def]

theorem fieldsOf?_pretty {fields : List (String × Json)} (hne : fields ≠ [])
    (h : ∀ field ∈ fields, Readable floatstr field.2)
    (hreads : ∀ field ∈ fields, Reads floatstr indent field.2) {level fuel : Nat} (outer : Nat)
    (rest : List Char) (hfuel : (prettyFields floatstr indent level fields).length ≤ fuel) :
    fieldsOf? fuel (skipSpace (prettyFields floatstr indent level fields ++
      (newline indent outer ++ '}' :: rest))) = some (fields, rest) := by
  induction fields generalizing fuel with
  | nil => exact absurd rfl hne
  | cons field more ih =>
    obtain ⟨key, v⟩ := field
    have hv : Readable floatstr v := h (key, v) (by simp)
    have hread : Reads floatstr indent v := hreads (key, v) (by simp)
    have hquoted : (quoted key).length = (key.toList.flatMap escape).length + 2 := by simp [quoted]
    cases more with
    | nil =>
      simp only [prettyFields, List.length_append, List.length_cons, hquoted] at hfuel
      obtain ⟨f, rfl⟩ : ∃ f, fuel = f + 1 := ⟨fuel - 1, by omega⟩
      simp only [prettyFields, List.append_assoc, List.cons_append]
      exact fieldsOf?_last key hv hread outer rest (by omega)
    | cons next more =>
      simp only [prettyFields_cons, List.length_append, List.length_cons, hquoted] at hfuel
      obtain ⟨f, rfl⟩ : ∃ f, fuel = f + 1 := ⟨fuel - 1, by omega⟩
      have hmore := ih (by simp) (fun field hfield => h field (by simp [hfield]))
        (fun field hfield => hreads field (by simp [hfield]))
        (by omega : (prettyFields floatstr indent level (next :: more)).length ≤ f)
      simp only [prettyFields_cons, List.append_assoc, List.cons_append]
      exact fieldsOf?_comma key hv hread (by omega) hmore

theorem prettyItems_head {v : Json} (h : Readable floatstr v) (indent level : Nat)
    (more : List Json) (rest : List Char) : ∃ c tail,
      skipSpace (prettyItems floatstr indent level (v :: more) ++ rest) = c :: tail ∧ Opens c := by
  obtain ⟨c, tail, htext, hc⟩ := pretty_head h indent level
  cases more with
  | nil =>
    rw [prettyItems, List.append_assoc, skipSpace_newline, pretty_skip h, htext]
    exact ⟨c, tail ++ rest, rfl, hc⟩
  | cons next more =>
    rw [prettyItems_cons, List.append_assoc, skipSpace_newline, List.append_assoc, pretty_skip h, htext]
    exact ⟨c, _, rfl, hc⟩

theorem prettyFields_head (floatstr : ℚ → List Char) (indent level : Nat) (field : String × Json)
    (more : List (String × Json)) (rest : List Char) : ∃ tail,
      skipSpace (prettyFields floatstr indent level (field :: more) ++ rest) = '"' :: tail := by
  obtain ⟨key, v⟩ := field
  cases more with
  | nil =>
    rw [prettyFields, List.append_assoc, skipSpace_newline]
    exact ⟨_, rfl⟩
  | cons next more =>
    rw [prettyFields_cons, List.append_assoc, skipSpace_newline]
    exact ⟨_, rfl⟩

theorem reads_arr {items : List Json} (h : ∀ v ∈ items, Readable floatstr v)
    (hreads : ∀ v ∈ items, Reads floatstr indent v) : Reads floatstr indent (.arr items) := by
  intro level fuel rest hfuel hrest
  have hpos := pretty_pos (.arr h : Readable floatstr _) indent level
  obtain ⟨f, rfl⟩ : ∃ f, fuel = f + 1 := ⟨fuel - 1, by omega⟩
  cases items with
  | nil =>
    rw [pretty]
    rfl
  | cons v more =>
    obtain ⟨c, tail, htext, hc⟩ := prettyItems_head (h v (by simp)) indent (level + 1) more
      (newline indent level ++ ']' :: rest)
    have hlen : (prettyItems floatstr indent (level + 1) (v :: more)).length ≤ f := by
      simp only [pretty, List.length_cons, List.length_append] at hfuel
      omega
    have hitems := items?_pretty (by simp) h hreads level rest hlen
    rw [htext] at hitems
    simp only [pretty, List.cons_append, List.append_assoc, List.nil_append]
    rw [value?, htext]
    split
    · next heq => exact absurd (List.cons.inj heq).1 (hc.ne (by decide) (by decide))
    · rw [hitems]
      rfl

theorem reads_obj {fields : List (String × Json)} (h : ∀ field ∈ fields, Readable floatstr field.2)
    (hreads : ∀ field ∈ fields, Reads floatstr indent field.2) :
    Reads floatstr indent (.obj fields) := by
  intro level fuel rest hfuel hrest
  have hpos := pretty_pos (.obj h : Readable floatstr _) indent level
  obtain ⟨f, rfl⟩ : ∃ f, fuel = f + 1 := ⟨fuel - 1, by omega⟩
  cases fields with
  | nil =>
    rw [pretty]
    rfl
  | cons field more =>
    obtain ⟨tail, htext⟩ := prettyFields_head floatstr indent (level + 1) field more
      (newline indent level ++ '}' :: rest)
    have hlen : (prettyFields floatstr indent (level + 1) (field :: more)).length ≤ f := by
      simp only [pretty, List.length_cons, List.length_append] at hfuel
      omega
    have hfields := fieldsOf?_pretty (by simp) h hreads level rest hlen
    rw [htext] at hfields
    simp only [pretty, List.cons_append, List.append_assoc, List.nil_append]
    rw [value?, htext]
    exact congrArg (Option.map fun x => (Json.obj x.1, x.2)) hfields

theorem reads_number {v : Json} {text : List Char}
    (htext : ∀ level, pretty floatstr indent level v = text)
    (hhead : ∃ c tail, text = c :: tail ∧ (c.isDigit ∨ c = '-'))
    (hread : ∀ rest, Ends rest → number? (text ++ rest) = some (v, rest)) :
    Reads floatstr indent v := by
  intro level fuel rest hfuel hrest
  obtain ⟨c, tail, hcons, hc⟩ := hhead
  rw [htext] at hfuel ⊢
  rw [hcons, List.length_cons] at hfuel
  obtain ⟨f, rfl⟩ : ∃ f, fuel = f + 1 := ⟨fuel - 1, by omega⟩
  rw [hcons, List.cons_append, value?_number hc, ← List.cons_append, ← hcons, hread rest hrest]

theorem reads_str (s : String) : Reads floatstr indent (.str s) := by
  intro level fuel rest hfuel hrest
  simp only [pretty, quoted, List.length_cons, List.length_append] at hfuel
  obtain ⟨f, rfl⟩ : ∃ f, fuel = f + 1 := ⟨fuel - 1, by omega⟩
  have hread := string?_quoted rest (by omega : (s.toList.flatMap escape).length ≤ f)
  rw [pretty, quoted, List.cons_append, List.append_assoc, List.singleton_append, value?, hread,
    Option.map_some]
  simp only [String.ofList_toList]

theorem reads_word {v : Json} (h : v = .null ∨ ∃ b, v = .bool b) : Reads floatstr indent v := by
  intro level fuel rest hfuel hrest
  obtain rfl | ⟨_ | _, rfl⟩ := h
  all_goals
    simp only [pretty] at hfuel
    obtain ⟨f, rfl⟩ : ∃ f, fuel = f + 1 := ⟨fuel - 1, by simp at hfuel; omega⟩
    rw [pretty]
    rfl

theorem readable_reads {v : Json} (h : Readable floatstr v) : Reads floatstr indent v := by
  induction h with
  | null => exact reads_word (.inl rfl)
  | bool b => exact reads_word (.inr ⟨b, rfl⟩)
  | int n =>
    exact reads_number (fun _ => by rw [pretty]) (toString_head n) fun rest hrest => number?_int hrest
  | float h =>
    cases h with
    | float hread hhead => exact reads_number (fun _ => by rw [pretty]) hhead hread
  | str s => exact reads_str s
  | arr h ih => exact reads_arr h ih
  | obj h ih => exact reads_obj h ih

/-- What is written over several lines is read as it was. -/
theorem loads_pretty {v : Json} (h : Readable floatstr v) :
    loads (pretty floatstr indent 0 v) = some v := by
  have hskip := pretty_skip h indent 0 []
  have hread : value? ((pretty floatstr indent 0 v).length + 1) (pretty floatstr indent 0 v ++ []) =
      some (v, []) := readable_reads h 0 _ [] (by omega) (by simp [Ends])
  rw [List.append_nil] at hskip hread
  rw [loads, hskip, hread]
  rfl

end Reading

/-! ## Groups of fields -/

theorem groups_eq {keys : List String} {p q r r' : List (String × Json)}
    (hp : ∀ field ∈ p, field.1 ∈ keys) (hq : ∀ field ∈ q, field.1 ∈ keys)
    (hr : ∀ field ∈ r, field.1 ∉ keys) (hr' : ∀ field ∈ r', field.1 ∉ keys)
    (h : p ++ r = q ++ r') : p = q ∧ r = r' := by
  have hkept : ∀ {p r : List (String × Json)}, (∀ field ∈ p, field.1 ∈ keys) →
      (∀ field ∈ r, field.1 ∉ keys) → (p ++ r).filter (·.1 ∈ keys) = p := by
    intro p r hp hr
    rw [List.filter_append, List.filter_eq_self.mpr (by simpa using hp),
      List.filter_eq_nil_iff.mpr (by simpa using hr), List.append_nil]
  have hpq : p = q := by rw [← hkept hp hr, h, hkept hq hr']
  subst hpq
  exact ⟨rfl, List.append_cancel_left h⟩

end Json
