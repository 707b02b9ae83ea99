import Mathlib.Data.Bool.AllAny
import Mathlib.Data.ZMod.Basic
import Mathlib.Algebra.Field.ZMod
import Mathlib.Tactic.NormNum.Prime
import ArcaEdi.Lib.CheckDigit
import ArcaEdi.Lib.Raise
import ArcaEdi.Actions
import ArcaEdi.AccountMove

/-!
# What is accepted as a CUIT

`is_valid_cuit` keeps what Python calls a digit and drops the rest, so more texts
pass it than are written as a CUIT.
-/

namespace ArcaEdi

open Raise

/-! ## The check digit -/

/-- Zero where `int` refuses the character. -/
def cuitDigit (c : Char) : Nat := (PyText.decimal? c).getD 0

/-- The last digit has weight one. -/
def cuitWeights : List Nat := cuitCheckWeights ++ [1]

def cuitTotal (digits : List Char) : Nat :=
  (List.zipWith (· * ·) (digits.map cuitDigit) cuitWeights).sum

theorem cuitDigit_lt (c : Char) : cuitDigit c < 10 := by
  unfold cuitDigit
  cases hc : PyText.decimal? c with
  | none => simp
  | some n => exact PyText.decimal?_lt hc

theorem digitValue_eq {c : Char} (h : (PyText.decimal? c).isSome) :
    digitValue c = .ok (cuitDigit c) := by
  obtain ⟨n, hn⟩ := Option.isSome_iff_exists.mp h
  simp [digitValue, cuitDigit, hn]

theorem digitValue_error {c : Char} (h : PyText.decimal? c = none) :
    digitValue c = .error .valueError := by
  simp [digitValue, h]

theorem mapM_digitValue {chars : List Char} (h : ∀ c ∈ chars, (PyText.decimal? c).isSome) :
    chars.mapM digitValue = .ok (chars.map cuitDigit) := by
  induction chars with
  | nil => rfl
  | cons c chars ih =>
    rw [List.mapM_cons, digitValue_eq (h c (by simp)), ih fun d hd => h d (by simp [hd])]
    rfl

theorem mapM_digitValue_error {chars : List Char} (h : ∃ c ∈ chars, PyText.decimal? c = none) :
    chars.mapM digitValue = .error .valueError := by
  induction chars with
  | nil => simp at h
  | cons c chars ih =>
    rw [List.mapM_cons]
    cases hc : PyText.decimal? c with
    | none =>
      rw [digitValue_error hc]
      rfl
    | some n =>
      obtain ⟨d, hd, hnone⟩ := h
      rcases List.mem_cons.mp hd with rfl | hd
      · rw [hc] at hnone
        cases hnone
      · rw [digitValue_eq (by rw [hc]; rfl), ih ⟨d, hd, hnone⟩]
        rfl

/-- The weights and the first ten digits alone. -/
def cuitRemainder (ten : List Char) : Nat :=
  (List.zipWith (· * ·) (ten.map cuitDigit) cuitCheckWeights).sum % 11

theorem computeCuitCheckDigit_eq {ten : List Char} (h : ∀ c ∈ ten, (PyText.decimal? c).isSome) :
    computeCuitCheckDigit ten = .ok (
      if cuitRemainder ten = 0 then some 0
      else if cuitRemainder ten = 1 then none else some (11 - cuitRemainder ten)) := by
  have hlt : cuitRemainder ten < 11 := Nat.mod_lt _ (by decide)
  have hremainder : (List.zipWith (· * ·) (ten.map cuitDigit) cuitCheckWeights).sum % 11 =
      cuitRemainder ten := rfl
  unfold computeCuitCheckDigit
  rw [mapM_digitValue h]
  simp only [bind, Except.bind, hremainder]
  by_cases hzero : cuitRemainder ten = 0
  · rw [if_pos hzero, if_pos (by omega)]
    rfl
  · rw [if_neg hzero, if_neg (by omega)]
    by_cases hone : cuitRemainder ten = 1
    · rw [if_pos hone, if_pos (by omega)]
      rfl
    · rw [if_neg hone, if_neg (by omega)]
      rfl

theorem cuitTotal_concat {ten : List Char} {last : Char} (h : ten.length = 10) :
    cuitTotal (ten ++ [last]) =
      (List.zipWith (· * ·) (ten.map cuitDigit) cuitCheckWeights).sum + cuitDigit last := by
  have hlen : (ten.map cuitDigit).length = cuitCheckWeights.length := by
    rw [List.length_map, h]
    rfl
  simp [cuitTotal, cuitWeights, List.zipWith_append hlen]

/-- A text with eleven digits, the last one apart. -/
def ReadsAs (s : String) (ten : List Char) (last : Char) : Prop :=
  (PyText.keepDigits s).toList = ten ++ [last] ∧ ten.length = 10

theorem readsAs_of_length {s : String} (h : (PyText.keepDigits s).toList.length = 11) :
    ∃ ten last, ReadsAs s ten last := by
  have hne : (PyText.keepDigits s).toList ≠ [] := by
    intro hnil
    rw [hnil] at h
    cases h
  refine ⟨_, _, (List.dropLast_append_getLast hne).symm, ?_⟩
  rw [List.length_dropLast, h]

section Reading

variable {s : String} {ten : List Char} {last : Char}

theorem ReadsAs.length (h : ReadsAs s ten last) : (PyText.keepDigits s).toList.length = 11 := by
  rw [h.1, List.length_append, h.2]
  rfl

theorem isValidCuit_short (h : (PyText.keepDigits s).toList.length ≠ 11) :
    isValidCuit s = .ok false := by
  unfold isValidCuit
  rw [if_pos h]
  rfl

theorem isValidCuit_raises (h : ReadsAs s ten last) (hten : ∃ c ∈ ten, PyText.decimal? c = none) :
    isValidCuit s = .error .valueError := by
  unfold isValidCuit
  rw [if_neg (not_not.mpr h.length), h.1, List.take_left' h.2]
  unfold computeCuitCheckDigit
  rw [mapM_digitValue_error hten]
  rfl

theorem isValidCuit_decimal (h : ReadsAs s ten last) (hten : ∀ c ∈ ten, (PyText.decimal? c).isSome) :
    isValidCuit s =
      if cuitRemainder ten = 1 then .ok false
      else (digitValue last).map fun _ => decide (11 ∣ cuitTotal (ten ++ [last])) := by
  have hget : (ten ++ [last])[10]? = some last := by
    rw [List.getElem?_append_right (by rw [h.2]), h.2]
    rfl
  have hlt : cuitRemainder ten < 11 := Nat.mod_lt _ (by decide)
  have hlast := cuitDigit_lt last
  unfold isValidCuit
  rw [if_neg (not_not.mpr h.length), h.1, List.take_left' h.2, hget, computeCuitCheckDigit_eq hten,
    cuitTotal_concat h.2]
  unfold cuitRemainder at *
  generalize (List.zipWith (· * ·) (ten.map cuitDigit) cuitCheckWeights).sum = total at *
  by_cases hone : total % 11 = 1
  · rw [if_pos hone, if_neg (by omega), if_pos hone]
    rfl
  · have hexpected : (if total % 11 = 0 then some 0 else if total % 11 = 1 then none
        else some (11 - total % 11)) = some ((11 - total % 11) % 11) := by
      rw [if_neg hone]
      split
      · next hzero => rw [hzero]
      · next hzero =>
        have hdigit : 11 - total % 11 < 11 := by omega
        rw [Nat.mod_eq_of_lt hdigit]
    rw [hexpected, if_neg hone]
    cases hdigit : PyText.decimal? last with
    | none =>
      rw [digitValue_error hdigit]
      simp only [bind, Except.bind, digitValue_error hdigit]
      rfl
    | some n =>
      have hvalue := digitValue_eq (c := last) (by rw [hdigit]; rfl)
      have hcheck : (11 - total % 11) % 11 = cuitDigit last ↔ 11 ∣ total + cuitDigit last := by omega
      simp only [bind, Except.bind, hvalue]
      simp only [Except.map, ← hcheck]
      rfl

theorem isValidCuit_last (h : ReadsAs s ten last) (hten : ∀ c ∈ ten, (PyText.decimal? c).isSome)
    (hone : cuitRemainder ten ≠ 1) (hlast : PyText.decimal? last = none) :
    isValidCuit s = .error .valueError := by
  rw [isValidCuit_decimal h hten, if_neg hone, digitValue_error hlast]
  rfl

theorem isValidCuit_reads (h : ReadsAs s ten last) (hten : ∀ c ∈ ten, (PyText.decimal? c).isSome)
    (hlast : cuitRemainder ten ≠ 1 → (PyText.decimal? last).isSome) :
    isValidCuit s = .ok (decide (11 ∣ cuitTotal (ten ++ [last]))) := by
  rw [isValidCuit_decimal h hten]
  split
  · next hone =>
    have hdigit := cuitDigit_lt last
    have hnot : ¬ 11 ∣ cuitTotal (ten ++ [last]) := by
      rw [cuitTotal_concat h.2]
      unfold cuitRemainder at hone
      omega
    rw [decide_eq_false hnot]
  · next hone =>
    rw [digitValue_eq (hlast hone)]
    rfl

theorem isValidCuit_digits (h : isValidCuit s = .ok true) :
    (PyText.keepDigits s).toList.length = 11 ∧
      ∀ c ∈ (PyText.keepDigits s).toList, (PyText.decimal? c).isSome := by
  have hlen : (PyText.keepDigits s).toList.length = 11 := by
    by_contra hne
    rw [isValidCuit_short hne] at h
    cases h
  obtain ⟨ten, last, hreads⟩ := readsAs_of_length hlen
  have hten : ∀ c ∈ ten, (PyText.decimal? c).isSome := by
    by_contra hex
    push Not at hex
    obtain ⟨c, hc, hnone⟩ := hex
    rw [isValidCuit_raises hreads ⟨c, hc, by simpa using hnone⟩] at h
    cases h
  have hlast : (PyText.decimal? last).isSome := by
    rw [isValidCuit_decimal hreads hten] at h
    cases hdigit : PyText.decimal? last with
    | some => rfl
    | none =>
      rw [digitValue_error hdigit] at h
      split at h <;> cases h
  refine ⟨hlen, fun c hc => ?_⟩
  rw [hreads.1, List.mem_append, List.mem_singleton] at hc
  rcases hc with hc | rfl
  · exact hten c hc
  · exact hlast

end Reading

/-! ## How a CUIT is written -/

def cuitSeparators : List Char := ['-', '.', ' ']

def PlainText (s : String) : Prop := ∀ c ∈ s.toList, c.isDigit ∨ c ∈ cuitSeparators

instance (s : String) : Decidable (PlainText s) := List.decidableBAll _ _

/-- Eleven ASCII digits whose weights add up, with only hyphens, dots and spaces
between or around them. -/
def WrittenCuit (s : String) : Prop :=
  PlainText s ∧ (s.toList.filter (·.isDigit)).length = 11 ∧ 11 ∣ cuitTotal (s.toList.filter (·.isDigit))

theorem separator_dropped : ∀ c ∈ cuitSeparators, PyText.isDigit c = false :=
  List.all_iff_forall_prop.mp (by decide +kernel)

theorem keepDigits_plain {s : String} (h : PlainText s) :
    (PyText.keepDigits s).toList = s.toList.filter (·.isDigit) := by
  rw [PyText.keepDigits, String.toList_ofList]
  refine List.filter_congr fun c hc => ?_
  rcases h c hc with hdigit | hseparator
  · rw [hdigit, PyText.isDigit_ascii hdigit]
  · rw [separator_dropped c hseparator]
    exact (Bool.eq_false_iff.mpr fun hdigit => by
      have hkept := PyText.isDigit_ascii hdigit
      rw [separator_dropped c hseparator] at hkept
      cases hkept).symm

/-- The text without its separators. -/
def unseparated (s : String) : List Char := s.toList.filter (· ∉ cuitSeparators)

theorem keepDigits_unseparated {s : String} :
    (PyText.keepDigits s).toList = (unseparated s).filter PyText.isDigit := by
  rw [PyText.keepDigits, String.toList_ofList, unseparated, List.filter_filter]
  refine List.filter_congr fun c _ => ?_
  cases hc : PyText.isDigit c with
  | false => rfl
  | true =>
    have hnot : c ∉ cuitSeparators := by
      intro hmem
      rw [separator_dropped c hmem] at hc
      cases hc
    simp [hnot]

/-! ## Its three readers -/

/-- The view with another tax number on a company. -/
def withVat (v : View) (k : Nat) (vat : String) : View
  | .company c =>
    if c = k then { (v (.company c) : Company) with vat := some vat } else v (.company c)
  | key => v key

/-- What is accepted is written as a CUIT, names its holder in the CSR, and names one
issuer and one lock however it is separated. -/
structure CuitChecked (s : String) : Prop where
  returns : ∃ valid, isValidCuit s = .ok valid
  exact : isValidCuit s = .ok true ↔ WrittenCuit s
  serial : isValidCuit s = .ok true → ∀ (c c' : Certificate) canWrite key, c.holderCuit = s →
    c.actionGenerateKeyAndCsr canWrite key = .ok c' → ∃ csr digits, c'.csrPem = some csr ∧
      csr.serialNumber = "CUIT " ++ digits ∧ digits.toList.length = 11 ∧ ∀ d ∈ digits.toList, d.isDigit
  issuer : isValidCuit s = .ok true → ∀ company : Company, ∀ written,
    unseparated written = unseparated s → ∃ digits,
      { company with vat := some s }.issuerCuit = .ok digits ∧
        { company with vat := some written }.issuerCuit = .ok digits
  lock : isValidCuit s = .ok true → ∀ written, unseparated written = unseparated s →
    ∀ (P : Platform) v k m, (moveSequence (withVat v k written) m).map P.lockKey =
      (moveSequence (withVat v k s) m).map P.lockKey

/-- `int` reads the digits that it is asked for, and where the weights add up the text
has nothing but ASCII digits and separators. -/
structure ReadsPlainly (s : String) (ten : List Char) (last : Char) : Prop where
  decimal : ∀ c ∈ ten, (PyText.decimal? c).isSome
  lastDecimal : cuitRemainder ten ≠ 1 → (PyText.decimal? last).isSome
  plain : 11 ∣ cuitTotal (ten ++ [last]) → PlainText s

section Accepted

variable {s written : String} {ten : List Char} {last : Char}

theorem keepDigits_congr (h : unseparated written = unseparated s) :
    PyText.keepDigits written = PyText.keepDigits s := by
  apply String.toList_injective
  rw [keepDigits_unseparated, h, keepDigits_unseparated]

theorem keepDigits_idem : PyText.keepDigits (PyText.keepDigits s) = PyText.keepDigits s := by
  simp [PyText.keepDigits, List.filter_filter]

theorem isValidCuit_keepDigits : isValidCuit (PyText.keepDigits s) = isValidCuit s := by
  unfold isValidCuit
  rw [keepDigits_idem]

theorem issuerCuit_written (company : Company) (h : unseparated written = unseparated s) :
    { company with vat := some written }.issuerCuit = { company with vat := some s }.issuerCuit := by
  unfold Company.issuerCuit
  simp only [Option.getD_some, keepDigits_congr h]

theorem issuerCuit_accepted (company : Company) (h : isValidCuit s = .ok true) :
    { company with vat := some s }.issuerCuit = .ok (PyText.keepDigits s) := by
  unfold Company.issuerCuit
  simp only [Option.getD_some, isValidCuit_keepDigits, h]
  rfl

theorem issuerCuit_number {company : Company} {cuit : String} (h : company.issuerCuit = .ok cuit) :
    ∃ n : Nat, PyText.int? cuit = some (n : Int) := by
  unfold Company.issuerCuit at h
  simp only [bind_eq_ok] at h
  obtain ⟨valid, hvalid, h⟩ := h
  split at h
  · next hv =>
    obtain rfl := pure_eq_ok.mp h
    subst hv
    rw [isValidCuit_keepDigits] at hvalid
    obtain ⟨hlen, hdec⟩ := isValidCuit_digits hvalid
    refine PyText.int?_decimal ?_ (by rw [hlen]; decide) hdec
    intro hempty
    rw [hempty] at hlen
    cases hlen
  · exact absurd h throw_ne_ok

theorem moveSequence_written (v : View) (k m : Nat) (h : unseparated written = unseparated s) :
    moveSequence (withVat v k written) m = moveSequence (withVat v k s) m := by
  have hissuer : ∀ c, (withVat v k written (.company c) : Company).issuerCuit =
      (withVat v k s (.company c) : Company).issuerCuit := by
    intro c
    by_cases hc : c = k
    · subst hc
      simpa [withVat] using issuerCuit_written (v (.company c)) h
    · simp [withVat, hc]
  unfold moveSequence
  simp only [hissuer]
  rfl

theorem readsPlainly_valid (h : ReadsAs s ten last) (hr : ReadsPlainly s ten last) :
    isValidCuit s = .ok (decide (11 ∣ cuitTotal (ten ++ [last]))) :=
  isValidCuit_reads h hr.decimal hr.lastDecimal

theorem readsPlainly_exact (h : ReadsAs s ten last) (hr : ReadsPlainly s ten last) :
    isValidCuit s = .ok true ↔ WrittenCuit s := by
  rw [readsPlainly_valid h hr, Except.ok.injEq, decide_eq_true_iff]
  constructor
  · intro htotal
    have hplain := hr.plain htotal
    have hdigits := keepDigits_plain hplain
    refine ⟨hplain, ?_, ?_⟩
    · rw [← hdigits, h.length]
    · rw [← hdigits, h.1]
      exact htotal
  · rintro ⟨hplain, -, htotal⟩
    rwa [← keepDigits_plain hplain, h.1] at htotal

theorem short_exact (h : (PyText.keepDigits s).toList.length ≠ 11) :
    isValidCuit s = .ok true ↔ WrittenCuit s := by
  rw [isValidCuit_short h]
  refine iff_of_false (by simp) ?_
  rintro ⟨hplain, hlen, -⟩
  rw [← keepDigits_plain hplain] at hlen
  exact h hlen

theorem cuitChecked_of_exact (hreturns : ∃ valid, isValidCuit s = .ok valid)
    (hexact : isValidCuit s = .ok true ↔ WrittenCuit s) : CuitChecked s where
  returns := hreturns
  exact := hexact
  serial := by
    rintro hvalid c c' canWrite key rfl hrun
    obtain ⟨-, -, rfl⟩ := Certificate.generate_eq_ok.mp hrun
    obtain ⟨hplain, hlen, -⟩ := hexact.mp hvalid
    have hdigits := keepDigits_plain hplain
    refine ⟨_, PyText.keepDigits c.holderCuit, rfl, rfl, ?_, ?_⟩
    · rw [hdigits, hlen]
    · intro d hd
      rw [hdigits] at hd
      exact List.of_mem_filter hd
  issuer := by
    intro hvalid company written hwritten
    have haccepted := issuerCuit_accepted company hvalid
    exact ⟨_, haccepted, (issuerCuit_written company hwritten).trans haccepted⟩
  lock := fun _ _ hwritten P v k m => by rw [moveSequence_written v k m hwritten]

end Accepted

/-- The check is what it should be exactly for the texts that read plainly. -/
theorem cuit_checked (s : String) :
    CuitChecked s ↔ ∀ ten last, ReadsAs s ten last → ReadsPlainly s ten last := by
  constructor
  · rintro ⟨⟨valid, hvalid⟩, hexact, -, -, -⟩ ten last hreads
    have hten : ∀ c ∈ ten, (PyText.decimal? c).isSome := by
      by_contra hnot
      push Not at hnot
      obtain ⟨c, hc, hnone⟩ := hnot
      rw [isValidCuit_raises hreads ⟨c, hc, by simpa using hnone⟩] at hvalid
      cases hvalid
    have hlast : cuitRemainder ten ≠ 1 → (PyText.decimal? last).isSome := by
      intro hone
      by_contra hnone
      rw [isValidCuit_last hreads hten hone (by simpa using hnone)] at hvalid
      cases hvalid
    refine ⟨hten, hlast, fun htotal => (hexact.mp ?_).1⟩
    rw [isValidCuit_reads hreads hten hlast, decide_eq_true htotal]
  · intro h
    by_cases hlen : (PyText.keepDigits s).toList.length = 11
    · obtain ⟨ten, last, hreads⟩ := readsAs_of_length hlen
      have hr := h ten last hreads
      exact cuitChecked_of_exact ⟨_, readsPlainly_valid hreads hr⟩ (readsPlainly_exact hreads hr)
    · exact cuitChecked_of_exact ⟨_, isValidCuit_short hlen⟩ (short_exact hlen)

/-- A superscript is a digit that `int` refuses, and letters are dropped. -/
theorem cuit_unchecked :
    ¬ CuitChecked "²0123456786" ∧ ¬ CuitChecked "AR20123456786" ∧ ¬ CuitChecked "٢٠١٢٣٤٥٦٧٨٦" := by
  refine ⟨fun h => ?_, fun h => ?_, fun h => ?_⟩
  · obtain ⟨valid, hvalid⟩ := h.returns
    have hraises : isValidCuit "²0123456786" = .error .valueError := by decide +kernel
    rw [hraises] at hvalid
    cases hvalid
  · exact absurd (h.exact.mp (by decide +kernel)).1 (by decide +kernel)
  · exact absurd (h.exact.mp (by decide +kernel)).1 (by decide +kernel)

/-! ## Typing errors -/

section Errors

theorem prime_eleven : Nat.Prime 11 := by norm_num

variable {pre post : List Char} {a b : Char}

theorem asciiDigit_injective (ha : a.isDigit) (hb : b.isDigit)
    (h : (cuitDigit a : ZMod 11) = cuitDigit b) : a = b := by
  have hvalue : ∀ c : Char, c.isDigit → cuitDigit c = c.toNat - 48 := by
    intro c hc
    rw [cuitDigit, PyText.decimal?_ascii hc]
    rfl
  rw [ZMod.natCast_eq_natCast_iff', Nat.mod_eq_of_lt (by have := cuitDigit_lt a; omega),
    Nat.mod_eq_of_lt (by have := cuitDigit_lt b; omega), hvalue a ha, hvalue b hb] at h
  have hra : 48 ≤ a.toNat ∧ a.toNat ≤ 57 := Char.isDigit_iff_toNat.mp ha
  have hrb : 48 ≤ b.toNat ∧ b.toNat ≤ 57 := Char.isDigit_iff_toNat.mp hb
  exact Char.toNat_inj.mp (by omega)

theorem cuitTotal_cast (digits : List Char) : (cuitTotal digits : ZMod 11) =
    CheckDigit.weighted (cuitWeights.map (↑)) (digits.map fun c => (cuitDigit c : ZMod 11)) := by
  have hsum : ∀ l : List Nat, ((l.sum : Nat) : ZMod 11) = (l.map (↑)).sum :=
    fun l => map_list_sum (Nat.castRingHom (ZMod 11)) l
  rw [cuitTotal, hsum, List.map_zipWith, CheckDigit.weighted, List.zipWith_map, List.zipWith_map_left]
  simp only [Nat.cast_mul]

theorem isValidCuit_ascii {digits : List Char} (hlen : digits.length = 11)
    (h : ∀ c ∈ digits, c.isDigit) :
    isValidCuit (String.ofList digits) = .ok (decide ((cuitTotal digits : ZMod 11) = 0)) := by
  have hkeep : (PyText.keepDigits (String.ofList digits)).toList = digits := by
    simp only [PyText.keepDigits, String.toList_ofList]
    exact List.filter_eq_self.mpr fun c hc => PyText.isDigit_ascii (h c hc)
  obtain ⟨ten, last, hreads⟩ := readsAs_of_length (by rw [hkeep, hlen])
  have hsplit : digits = ten ++ [last] := hkeep.symm.trans hreads.1
  have hdecimal : ∀ c ∈ digits, (PyText.decimal? c).isSome := by
    intro c hc
    rw [PyText.decimal?_ascii (h c hc)]
    rfl
  rw [isValidCuit_reads hreads (fun c hc => hdecimal c (by simp [hsplit, hc]))
    fun _ => hdecimal last (by simp [hsplit]), ← hsplit]
  simp only [ZMod.natCast_eq_zero_iff]

theorem rejected_of_ne {digits digits' : List Char} (hlen : digits.length = 11)
    (hlen' : digits'.length = 11) (h : ∀ c ∈ digits, c.isDigit) (h' : ∀ c ∈ digits', c.isDigit)
    (hvalid : isValidCuit (String.ofList digits) = .ok true)
    (hne : (cuitTotal digits : ZMod 11) ≠ cuitTotal digits') :
    isValidCuit (String.ofList digits') = .ok false := by
  rw [isValidCuit_ascii hlen h, Except.ok.injEq, decide_eq_true_iff] at hvalid
  rw [isValidCuit_ascii hlen' h', decide_eq_false fun hzero => hne (hvalid.trans hzero.symm)]

theorem cuitWeights_get (i : Nat) :
    (i < 11 → ∃ w, (cuitWeights.map (Nat.cast : Nat → ZMod 11))[i]? = some w ∧ w ≠ 0) ∧
      (i + 1 < 11 → ∃ w w', (cuitWeights.map (Nat.cast : Nat → ZMod 11))[i]? = some w ∧
        (cuitWeights.map (Nat.cast : Nat → ZMod 11))[i + 1]? = some w' ∧ w ≠ w') := by
  have hweights : ∀ i < 11, ((cuitWeights.map (Nat.cast : Nat → ZMod 11))[i]?.any (· ≠ 0)) ∧
      (i + 1 < 11 → (cuitWeights.map (Nat.cast : Nat → ZMod 11))[i]? ≠
        (cuitWeights.map (Nat.cast : Nat → ZMod 11))[i + 1]?) := by decide
  have hget : ∀ i < 11, ∃ w, (cuitWeights.map (Nat.cast : Nat → ZMod 11))[i]? = some w :=
    fun i hi => ⟨_, List.getElem?_eq_getElem (by simpa [cuitWeights, cuitCheckWeights] using hi)⟩
  constructor
  · intro hi
    obtain ⟨w, hw⟩ := hget i hi
    have hzero := (hweights i hi).1
    rw [hw] at hzero
    exact ⟨w, hw, by simpa using hzero⟩
  · intro hi
    obtain ⟨w, hw⟩ := hget i (by omega)
    obtain ⟨w', hw'⟩ := hget (i + 1) hi
    have hne := (hweights i (by omega)).2 hi
    rw [hw, hw'] at hne
    exact ⟨w, w', hw, hw', fun heq => hne (by rw [heq])⟩

end Errors

/-- No digit of an accepted CUIT can be changed, and no two neighbours swapped. -/
theorem cuit_errors_caught {digits : List Char} (hlen : digits.length = 11)
    (hdigits : ∀ c ∈ digits, c.isDigit) (hvalid : isValidCuit (String.ofList digits) = .ok true) :
    (∀ pre post a b, digits = pre ++ a :: post → b.isDigit → a ≠ b →
      isValidCuit (String.ofList (pre ++ b :: post)) = .ok false) ∧
    ∀ pre post a b, digits = pre ++ a :: b :: post → a ≠ b →
      isValidCuit (String.ofList (pre ++ b :: a :: post)) = .ok false := by
  have : Fact (Nat.Prime 11) := ⟨prime_eleven⟩
  constructor
  · rintro pre post a b rfl hb hab
    obtain ⟨hpre, hrest⟩ := List.forall_mem_append.mp hdigits
    obtain ⟨ha, hpost⟩ := List.forall_mem_cons.mp hrest
    have hdigits' : ∀ c ∈ pre ++ b :: post, c.isDigit :=
      List.forall_mem_append.mpr ⟨hpre, List.forall_mem_cons.mpr ⟨hb, hpost⟩⟩
    have hlen' : (pre ++ b :: post).length = 11 := by simpa using hlen
    obtain ⟨w, hw, hzero⟩ := (cuitWeights_get pre.length).1 (by simp at hlen'; omega)
    refine rejected_of_ne hlen hlen' hdigits hdigits' hvalid fun heq => hab ?_
    rw [cuitTotal_cast, cuitTotal_cast, List.map_append, List.map_cons, List.map_append, List.map_cons,
      CheckDigit.weighted_single (by rw [List.length_map]; exact hw) hzero] at heq
    exact asciiDigit_injective ha hb heq
  · rintro pre post a b rfl hab
    obtain ⟨hpre, hrest⟩ := List.forall_mem_append.mp hdigits
    obtain ⟨ha, hrest⟩ := List.forall_mem_cons.mp hrest
    obtain ⟨hb, hpost⟩ := List.forall_mem_cons.mp hrest
    have hdigits' : ∀ c ∈ pre ++ b :: a :: post, c.isDigit := List.forall_mem_append.mpr
      ⟨hpre, List.forall_mem_cons.mpr ⟨hb, List.forall_mem_cons.mpr ⟨ha, hpost⟩⟩⟩
    have hlen' : (pre ++ b :: a :: post).length = 11 := by simpa using hlen
    obtain ⟨w, w', hw, hw', hne⟩ := (cuitWeights_get pre.length).2 (by simp at hlen'; omega)
    refine rejected_of_ne hlen hlen' hdigits hdigits' hvalid fun heq => hab ?_
    rw [cuitTotal_cast, cuitTotal_cast, List.map_append, List.map_cons, List.map_cons, List.map_append,
      List.map_cons, List.map_cons, CheckDigit.weighted_swap (by rw [List.length_map]; exact hw)
        (by rw [List.length_map]; exact hw') hne] at heq
    exact asciiDigit_injective ha hb heq

theorem cuit_errors_caught_20123456786 :
    isValidCuit (String.ofList "20123456776".toList) = .ok false ∧
      isValidCuit (String.ofList "20123456876".toList) = .ok false := by
  obtain ⟨hsingle, hswap⟩ := @cuit_errors_caught "20123456786".toList (by decide)
    (List.all_iff_forall_prop.mp (by decide)) (by decide +kernel)
  exact ⟨hsingle "201234567".toList ['6'] '8' '7' (by decide) (by decide) (by decide),
    hswap "20123456".toList ['6'] '7' '8' (by decide) (by decide)⟩

end ArcaEdi
