import ArcaEdi.Reconciliation

/-!
# The dates of ARCA

`_parse_arca_date` asks for eight digits and nothing else, and the due date of a CAE is
written after ARCA has issued it.
-/

namespace ArcaEdi

open PyText

/-! ## Days of the calendar -/

/-- A day that Python's calendar has. -/
def Date.Real (d : Date) : Prop :=
  1 ≤ d.year ∧ d.year ≤ 9999 ∧ 1 ≤ d.month ∧ d.month ≤ 12 ∧ 1 ≤ d.day ∧
    d.day ≤ Date.daysInMonth d.year d.month

instance (d : Date) : Decidable d.Real := inferInstanceAs (Decidable (_ ∧ _))

/-- The eight digits of a day, as ARCA writes them. -/
def Date.yyyymmdd (d : Date) : String := zeroPad 4 d.year ++ zeroPad 2 d.month ++ zeroPad 2 d.day

/-- `date.isoformat()` -/
def Date.isoformat (d : Date) : String :=
  zeroPad 4 d.year ++ "-" ++ zeroPad 2 d.month ++ "-" ++ zeroPad 2 d.day

theorem daysInMonth_le (year month : Nat) : Date.daysInMonth year month ≤ 31 := by
  unfold Date.daysInMonth
  split_ifs <;> decide

theorem compact_eq {d : Date} (h : 1000 ≤ d.year) : d.compact = d.yyyymmdd := by
  rw [Date.compact, Date.yyyymmdd, zeroPad_of_le 4 h]

/-! ### Two digits -/

theorem asciiDigit?_eq {c : Char} (h : c.isDigit) : asciiDigit? c = some (c.toNat - '0'.toNat) := by
  rw [asciiDigit?, if_pos h]

theorem month?_eq {tens units : Char} (ht : tens.isDigit) (hu : units.isDigit) {month : Nat}
    (hmonth : month = 10 * (tens.toNat - '0'.toNat) + (units.toNat - '0'.toNat))
    (h : 1 ≤ month ∧ month ≤ 12) : Date.month? tens units = some month := by
  unfold Date.month?
  rw [asciiDigit?_eq ht, asciiDigit?_eq hu]
  simp only
  rw [← hmonth, if_pos h]

theorem digit_le {c : Char} (h : c.isDigit) : c.toNat - '0'.toNat ≤ 9 := by
  have hlt := decimal?_lt (decimal?_ascii h)
  omega

theorem day?_eq {tens units : Char} (ht : tens.isDigit) (hu : units.isDigit) {day : Nat}
    (hday : day = 10 * (tens.toNat - '0'.toNat) + (units.toNat - '0'.toNat))
    (h : 1 ≤ day ∧ day ≤ 31) : Date.day? tens units = some day := by
  have hle := digit_le hu
  unfold Date.day?
  rw [asciiDigit?_eq ht, asciiDigit?_eq hu, decimal?_ascii hu]
  generalize tens.toNat - '0'.toNat = t at hday
  generalize units.toNat - '0'.toNat = u at hday hle
  obtain ⟨hpos, hmax⟩ := h
  rcases (by omega : t = 0 ∨ t = 1 ∨ t = 2 ∨ t = 3) with rfl | rfl | rfl | rfl
  · simp only [Option.bind_some]
    rw [if_pos (by omega)]
    congr
    omega
  · simp [hday]
  · simp [hday]
  · simp only [Option.bind_some]
    rw [if_pos (by omega)]
    congr
    omega

/-! ## What a Date field reads -/

theorem isoformat_toList (d : Date) : d.isoformat.toList = (zeroPad 4 d.year).toList ++
    '-' :: (zeroPad 2 d.month).toList ++ '-' :: (zeroPad 2 d.day).toList := by
  simp [Date.isoformat]

theorem yyyymmdd_toList (d : Date) : d.yyyymmdd.toList =
    (zeroPad 4 d.year).toList ++ ((zeroPad 2 d.month).toList ++ (zeroPad 2 d.day).toList) := by
  simp [Date.yyyymmdd]

theorem dateField_isoformat {d : Date} (h : d.Real) : dateField (some d.isoformat) = .ok (some d) := by
  obtain ⟨hy, hy9999, hm0, hm12, hd0, hlast⟩ := h
  have hdays : d.day ≤ 31 := hlast.trans (daysInMonth_le _ _)
  have hyear : (zeroPad 4 d.year).toList.length = 4 := zeroPad_length (by decide) (by omega)
  have hvalues := mapM_decimal? fun c (hc : c ∈ (zeroPad 4 d.year).toList) => zeroPad_isDigit hc
  have hvalue : natOfDigits (digitValues (zeroPad 4 d.year).toList) = d.year := by
    rw [natOfDigits_digitValues, zeroPad_value]
  obtain ⟨m1, m2, hmonth, hm1, hm2, hm⟩ := zeroPad_two (n := d.month) (by omega)
  obtain ⟨d1, d2, hday, hd1, hd2, hd⟩ := zeroPad_two (n := d.day) (by omega)
  unfold dateField
  simp only [isoformat_toList, hmonth, hday]
  match hchars : (zeroPad 4 d.year).toList, hyear with
  | [y1, y2, y3, y4], _ =>
    rw [hchars] at hvalues hvalue
    simp only [List.cons_append, List.nil_append]
    rw [hvalues, month?_eq hm1 hm2 hm ⟨hm0, hm12⟩, day?_eq hd1 hd2 hd ⟨hd0, hdays⟩]
    simp only [hvalue]
    rw [if_pos ⟨hy, hlast⟩]

/-! ## What `_parse_arca_date` returns -/

theorem yyyymmdd_lengths {d : Date} (h : d.Real) : (zeroPad 4 d.year).toList.length = 4 ∧
    (zeroPad 2 d.month).toList.length = 2 ∧ (zeroPad 2 d.day).toList.length = 2 := by
  obtain ⟨-, hy9999, -, hm12, -, hlast⟩ := h
  have hdays : d.day ≤ 31 := hlast.trans (daysInMonth_le _ _)
  exact ⟨zeroPad_length (by decide) (by omega), zeroPad_length (by decide) (by omega),
    zeroPad_length (by decide) (by omega)⟩

theorem yyyymmdd_isDigit {d : Date} {c : Char} (h : c ∈ d.yyyymmdd.toList) : c.isDigit := by
  rw [yyyymmdd_toList, List.mem_append, List.mem_append] at h
  rcases h with h | h | h <;> exact zeroPad_isDigit h

theorem yyyymmdd_digits {d : Date} (h : d.Real) : d.yyyymmdd.length = 8 ∧ allDigits d.yyyymmdd := by
  obtain ⟨hy, hm, hd⟩ := yyyymmdd_lengths h
  have hlen : d.yyyymmdd.length = 8 := by
    rw [← String.length_toList, yyyymmdd_toList, List.length_append, List.length_append, hy, hm, hd]
  refine ⟨hlen, ?_⟩
  have hne : d.yyyymmdd ≠ "" := by
    intro hempty
    rw [hempty] at hlen
    exact absurd hlen (by decide)
  rw [allDigits, Bool.and_eq_true, bne_iff_ne, List.all_eq_true]
  exact ⟨hne, fun c hc => isDigit_ascii (yyyymmdd_isDigit hc)⟩

/-- The dashes that the code puts between the digits. -/
def dashed (digits : List Char) : List Char :=
  digits.take 4 ++ '-' :: (digits.drop 4).take 2 ++ '-' :: digits.drop 6

theorem dashed_inj {digits digits' : List Char} (hlen : digits.length = 8) (hlen' : digits'.length = 8)
    (h : dashed digits = dashed digits') : digits = digits' := by
  match digits, digits', hlen, hlen' with
  | [_, _, _, _, _, _, _, _], [_, _, _, _, _, _, _, _], _, _ => simpa [dashed] using h

theorem dashed_yyyymmdd {d : Date} (h : d.Real) : dashed d.yyyymmdd.toList = d.isoformat.toList := by
  obtain ⟨hy, hm, -⟩ := yyyymmdd_lengths h
  rw [dashed, yyyymmdd_toList, isoformat_toList, List.take_left' hy, List.drop_left' hy,
    List.take_left' hm, ← List.append_assoc, List.drop_left' (by rw [List.length_append, hy, hm])]

theorem parseArcaDate_digits {value : String}
    (h : (strip value).length = 8 ∧ allDigits (strip value)) :
    parseArcaDate (some value) = some (String.ofList (dashed (strip value).toList)) := by
  have hne : value ≠ "" := by
    rintro rfl
    exact absurd h.1 (by decide)
  unfold parseArcaDate
  split
  · next heq => cases heq
  · next heq => exact absurd (Option.some.inj heq) hne
  · next heq =>
    obtain rfl := Option.some.inj heq
    rw [if_neg (by simp [h.1, h.2])]
    rfl

theorem parseArcaDate_other {value : String}
    (h : ¬ ((strip value).length = 8 ∧ allDigits (strip value))) : parseArcaDate (some value) = none := by
  unfold parseArcaDate
  split
  · rfl
  · rfl
  · next heq =>
    obtain rfl := Option.some.inj heq
    rw [if_pos]
    simpa [← imp_iff_not_or] using h

theorem parseArcaDate_yyyymmdd {d : Date} {value : String} (h : d.Real)
    (hvalue : strip value = d.yyyymmdd) : parseArcaDate (some value) = some d.isoformat := by
  rw [parseArcaDate_digits (hvalue ▸ yyyymmdd_digits h), hvalue, dashed_yyyymmdd h, String.ofList_toList]

/-! ## The due date -/

/-- What is read is absent or a day of the calendar, and the CAE is recorded with it,
when it is issued and when it is found later. -/
structure DueDateRead (value : Option String) : Prop where
  calendar : ∀ iso, parseArcaDate value = some iso → ∃ d : Date, d.Real ∧ iso = d.isoformat ∧
    dateField (some iso) = .ok (some d)
  issued : ∀ now durationMs t m i result, result.caeDueDate = parseArcaDate value →
    ∃ t', authorizeOutcome now durationMs t m i (.ok result) = .ok t'
  found : ∀ now t i moveId found, found.caeDueDate = parseArcaDate value →
    ∃ t', reconcileFound now t i moveId (some found) = .ok t'

/-- Eight digits are those of a day. -/
def PlainDate (value : Option String) : Prop :=
  ∀ text, value = some text → (strip text).length = 8 → allDigits (strip text) →
    ∃ d : Date, d.Real ∧ strip text = d.yyyymmdd

theorem dateField_parsed {value : Option String}
    (h : ∀ iso, parseArcaDate value = some iso → ∃ d : Date, d.Real ∧ iso = d.isoformat) :
    ∃ due, dateField (parseArcaDate value) = .ok due := by
  cases hparsed : parseArcaDate value with
  | none => exact ⟨none, rfl⟩
  | some iso =>
    obtain ⟨d, hreal, rfl⟩ := h iso hparsed
    exact ⟨some d, dateField_isoformat hreal⟩

theorem calendar_of_plain {value : Option String} (h : PlainDate value) (iso : String)
    (hparsed : parseArcaDate value = some iso) : ∃ d : Date, d.Real ∧ iso = d.isoformat := by
  cases value with
  | none => cases hparsed
  | some text =>
    by_cases hdigits : (strip text).length = 8 ∧ allDigits (strip text)
    · obtain ⟨d, hreal, htext⟩ := h text rfl hdigits.1 hdigits.2
      rw [parseArcaDate_yyyymmdd hreal htext] at hparsed
      exact ⟨d, hreal, (Option.some.inj hparsed).symm⟩
    · rw [parseArcaDate_other hdigits] at hparsed
      cases hparsed

theorem plain_of_calendar {value : Option String}
    (h : ∀ iso, parseArcaDate value = some iso → ∃ d : Date, d.Real ∧ iso = d.isoformat) :
    PlainDate value := by
  rintro text rfl hlen hdigits
  obtain ⟨d, hreal, hiso⟩ := h _ (parseArcaDate_digits ⟨hlen, hdigits⟩)
  refine ⟨d, hreal, ?_⟩
  have hlists : dashed (strip text).toList = dashed d.yyyymmdd.toList := by
    rw [dashed_yyyymmdd hreal, ← hiso, String.toList_ofList]
  refine String.toList_inj.mp (dashed_inj ?_ ?_ hlists)
  · rw [String.length_toList, hlen]
  · rw [String.length_toList, (yyyymmdd_digits hreal).1]

/-- A due date is read as it should be exactly when its eight digits, if it has them, are
those of a day. The digits of a day are read as that day. -/
theorem due_date_read (value : Option String) :
    (DueDateRead value ↔ PlainDate value) ∧
      ∀ d : Date, d.Real → 1000 ≤ d.year → parseArcaDate (some d.compact) = some d.isoformat := by
  refine ⟨⟨fun h => plain_of_calendar fun iso hiso => ?_, fun h => ?_⟩, fun d hreal hyear => ?_⟩
  · obtain ⟨d, hreal, hd, -⟩ := h.calendar iso hiso
    exact ⟨d, hreal, hd⟩
  · have hcalendar := calendar_of_plain h
    obtain ⟨due, hdue⟩ := dateField_parsed hcalendar
    refine ⟨fun iso hiso => ?_, fun now durationMs t m i result hresult => ?_,
      fun now t i moveId found hfound => ?_⟩
    · obtain ⟨d, hreal, rfl⟩ := hcalendar iso hiso
      exact ⟨d, hreal, rfl, dateField_isoformat hreal⟩
    · simp only [authorizeOutcome, hresult, hdue]
      exact ⟨_, rfl⟩
    · cases moveId <;> simp only [reconcileFound, hfound, hdue] <;> exact ⟨_, rfl⟩
  · have hstrip : strip d.yyyymmdd = d.yyyymmdd :=
      strip_of_notSpace fun c hc => not_isSpace_of_isDigit (yyyymmdd_isDigit hc)
    rw [compact_eq hyear, parseArcaDate_yyyymmdd hreal hstrip]

theorem due_date_read_leap_day :
    DueDateRead (some " 20280229") ∧
      parseArcaDate (some (⟨2028, 2, 29⟩ : Date).compact) = some (⟨2028, 2, 29⟩ : Date).isoformat := by
  refine ⟨(due_date_read (some " 20280229")).1.mpr ?_,
    (due_date_read none).2 ⟨2028, 2, 29⟩ (by decide) (by decide)⟩
  rintro text heq - -
  obtain rfl := Option.some.inj heq
  exact ⟨⟨2028, 2, 29⟩, by decide, by decide⟩

/-- The 31st of February has eight digits, and no Date field takes it: the CAE that ARCA
issued with it is not recorded. -/
theorem due_date_misread : ¬ ∀ value, DueDateRead value := by
  intro h
  obtain ⟨d, -, -, hread⟩ := (h (some "20260231")).calendar "2026-02-31" (by decide)
  have herror : dateField (some "2026-02-31") = .error .valueError := by rfl
  rw [herror] at hread
  cases hread

end ArcaEdi
