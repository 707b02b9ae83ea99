import ArcaEdi.Amounts

/-!
# The currency of a request

`_l10n_ar_arca_currency_values` takes the currency of the company for the peso, and
turns the booked rate upside down.
-/

namespace ArcaEdi

open Raise Totals

/-- What a unit of each currency is worth in pesos, and the rate of the invoice: how many
units of its currency one unit of the company's buys. -/
structure Market (m : Move) where
  /-- The id of the Argentine peso. -/
  pesos : Nat
  worth : Nat → ℚ
  worth_pos : ∀ c, 0 < worth c
  worth_pesos : worth pesos = 1
  booked : m.currency.id ≠ m.companyCurrencyId →
    m.invoiceCurrencyRate = worth m.companyCurrencyId / worth m.currency.id

def millionth : ℚ := 1 / 10 ^ 6

theorem millionth_pos : 0 < millionth := by norm_num [millionth]

section Quoted

variable {m : Move} {monId : String} {monCotiz : ℚ}

/-- MonId is the peso's for the peso alone, MonCotiz is one there, and elsewhere what a
unit is worth in pesos, to six digits. -/
structure Quoted (market : Market m) (monId : String) (monCotiz : ℚ) : Prop where
  code : monId = arsCurrencyCode ↔ m.currency.id = market.pesos
  one : monId = arsCurrencyCode → monCotiz = 1
  worth : monId ≠ arsCurrencyCode →
    0 < monCotiz ∧ |monCotiz - market.worth m.currency.id| ≤ millionth / 2

/-- Fifteen significant digits are what a double holds: nine before the six that are kept. -/
def doubleLimit : ℚ := 10 ^ 9

/-- A unit of the company's currency is worth a peso. An invoice in that currency is in
pesos. Any other one is in a currency with a code of its own, a unit of which is worth
half a millionth at least and no more than a double holds. -/
def Quotable (market : Market m) : Prop :=
  market.worth m.companyCurrencyId = 1 ∧
    if m.currency.id = m.companyCurrencyId then m.currency.id = market.pesos
    else
      (m.currency.afipCode = some arsCurrencyCode ↔ m.currency.id = market.pesos) ∧
      (m.currency.id ≠ market.pesos → millionth / 2 ≤ 1 / m.invoiceCurrencyRate) ∧
      1 / m.invoiceCurrencyRate < doubleLimit

/-- The rounding alone decides: what a unit is worth in pesos and in the company's currency
differs, but by a millionth at most. Or a double does not hold six digits of it. -/
def Borderline (market : Market m) : Prop :=
  m.currency.id ≠ m.companyCurrencyId ∧
    (market.worth m.companyCurrencyId ≠ 1 ∧
        |1 / m.invoiceCurrencyRate - market.worth m.currency.id| ≤ millionth ∨
      doubleLimit ≤ 1 / m.invoiceCurrencyRate)

theorem currencyValues_same (h : m.currency.id = m.companyCurrencyId) :
    m.currencyValues = .ok (arsCurrencyCode, 1) := by
  unfold Move.currencyValues
  rw [if_pos h]
  rfl

theorem currencyValues_other (hne : m.currency.id ≠ m.companyCurrencyId)
    (h : m.currencyValues = .ok (monId, monCotiz)) :
    m.currency.afipCode = some monId ∧ monCotiz = floatRound 6 (1 / m.invoiceCurrencyRate) := by
  unfold Move.currencyValues at h
  rw [if_neg hne] at h
  split at h
  · cases h
  · cases h
  · next code _ hcode =>
    obtain ⟨-, h⟩ := check_eq_ok.mp h
    obtain ⟨rfl, rfl⟩ := Prod.mk.inj (pure_eq_ok.mp h)
    exact ⟨hcode, rfl⟩

theorem Market.rate_eq (market : Market m) (hne : m.currency.id ≠ m.companyCurrencyId) :
    1 / m.invoiceCurrencyRate =
      market.worth m.currency.id / market.worth m.companyCurrencyId := by
  rw [market.booked hne, one_div_div]

theorem multiple_one : Multiple millionth 1 := ⟨10 ^ 6, by norm_num [millionth]⟩

theorem quoted_par (market : Market m) (hne : m.currency.id ≠ m.companyCurrencyId)
    (hpar : market.worth m.companyCurrencyId = 1)
    (h : m.currencyValues = .ok (monId, monCotiz)) :
    Quoted market monId monCotiz ↔
      (m.currency.afipCode = some arsCurrencyCode ↔ m.currency.id = market.pesos) ∧
        (m.currency.id ≠ market.pesos → millionth / 2 ≤ 1 / m.invoiceCurrencyRate) := by
  obtain ⟨hcode, rfl⟩ := currencyValues_other hne h
  have hworth : 1 / m.invoiceCurrencyRate = market.worth m.currency.id := by
    rw [market.rate_eq hne, hpar, div_one]
  have hround : floatRound 6 (1 / m.invoiceCurrencyRate) =
      roundTo millionth (market.worth m.currency.id) := by
    rw [hworth]
    exact floatRound_roundTo 6 _
  have hpos := roundTo_pos_iff millionth_pos (market.worth_pos m.currency.id).le
  rw [hcode, Option.some.injEq, hround, hworth]
  constructor
  · intro hquoted
    exact ⟨hquoted.code, fun hpesos => hpos.mp (hquoted.worth (mt hquoted.code.mp hpesos)).1⟩
  · rintro ⟨hiff, hhalf⟩
    refine ⟨hiff, fun hars => ?_, fun hars => ?_⟩
    · rw [hiff.mp hars, market.worth_pesos, roundTo_of_multiple millionth_pos multiple_one]
    · exact ⟨hpos.mpr (hhalf (mt hiff.mpr hars)), abs_roundTo_sub_le millionth_pos⟩

theorem quoted_near (market : Market m) (hne : m.currency.id ≠ m.companyCurrencyId)
    (h : m.currencyValues = .ok (monId, monCotiz)) (hquoted : Quoted market monId monCotiz) :
    |1 / m.invoiceCurrencyRate - market.worth m.currency.id| ≤ millionth := by
  obtain ⟨-, hcotiz⟩ := currencyValues_other hne h
  have hrounded : |monCotiz - 1 / m.invoiceCurrencyRate| ≤ millionth / 2 := by
    rw [hcotiz, floatRound_roundTo]
    exact abs_roundTo_sub_le millionth_pos
  have hclose : |monCotiz - market.worth m.currency.id| ≤ millionth / 2 := by
    by_cases hars : monId = arsCurrencyCode
    · rw [hquoted.one hars, hquoted.code.mp hars, market.worth_pesos]
      norm_num [millionth]
    · exact (hquoted.worth hars).2
  calc |1 / m.invoiceCurrencyRate - market.worth m.currency.id|
      ≤ |1 / m.invoiceCurrencyRate - monCotiz| + |monCotiz - market.worth m.currency.id| :=
        abs_sub_le ..
    _ ≤ millionth / 2 + millionth / 2 := add_le_add (abs_sub_comm monCotiz _ ▸ hrounded) hclose
    _ = millionth := add_halves _

theorem quoted_own (market : Market m) (hsame : m.currency.id = m.companyCurrencyId)
    (h : m.currencyValues = .ok (monId, monCotiz)) :
    Quoted market monId monCotiz ↔ m.currency.id = market.pesos := by
  obtain ⟨rfl, rfl⟩ := Prod.mk.inj (Except.ok.inj ((currencyValues_same hsame).symm.trans h))
  exact ⟨fun hquoted => hquoted.code.mp rfl,
    fun hpesos => ⟨iff_of_true rfl hpesos, fun _ => rfl, fun hne => absurd rfl hne⟩⟩

end Quoted

namespace Office

/-- An invoice of a company that keeps its books in some currency, at a rate. -/
def quotedIn (currency : Currency) (companyCurrencyId : Nat) (rate : ℚ) : Move :=
  { invoice 0 1 with
    currency := currency
    companyCurrencyId := companyCurrencyId
    invoiceCurrencyRate := rate }

/-- A dollar is worth 1000 pesos. -/
def worth (c : Nat) : ℚ := if c = 2 then 1000 else 1

theorem worth_pos (c : Nat) : 0 < worth c := by
  unfold worth
  split <;> norm_num

/-- Dollars, invoiced by a company that keeps its books in pesos. -/
def dollars : Market (quotedIn ⟨2, "USD", some "DOL"⟩ 1 (1 / 1000)) where
  pesos := 1
  worth := worth
  worth_pos := worth_pos
  worth_pesos := by norm_num [worth]
  booked := fun _ => by norm_num [quotedIn, worth]

/-- Dollars and pesos, invoiced by a company that keeps its books in dollars. -/
def ownDollars : Market (quotedIn ⟨2, "USD", some "DOL"⟩ 2 1) where
  pesos := 1
  worth := worth
  worth_pos := worth_pos
  worth_pesos := by norm_num [worth]
  booked := fun hne => absurd rfl hne

def foreignPesos : Market (quotedIn ⟨1, "ARS", some "PES"⟩ 2 1000) where
  pesos := 1
  worth := worth
  worth_pos := worth_pos
  worth_pesos := by norm_num [worth]
  booked := fun _ => by norm_num [quotedIn, worth]

end Office

end ArcaEdi
