import Mathlib.Algebra.Order.BigOperators.Group.List
import ArcaEdi.Lib.Json
import ArcaEdi.Lib.Strptime
import ArcaEdi.Dates
import ArcaEdi.Wsaa

/-!
# The cache of access tickets, as it is stored

`l10n_ar_arca_token_cache` is a JSON field, where an expiry is a text to the second.
The runner of the homologation reads the same entries with a rule of its own. The
clock counts the seconds since 1970.
-/

namespace ArcaEdi

open PyText Strptime

/-! ## Points in time -/

/-- A `datetime` of Python, without a zone. -/
structure Datetime where
  date : Date
  hour : Nat
  minute : Nat
  second : Nat
  microsecond : Nat
  real : date.Real ∧ hour < 24 ∧ minute < 60 ∧ second < 60 ∧ microsecond < 1000000
  deriving DecidableEq

/-- Days since the first day of year one, which is day one. -/
def Date.toordinal (d : Date) : Nat :=
  365 * (d.year - 1) + (d.year - 1) / 4 - (d.year - 1) / 100 + (d.year - 1) / 400 +
    ((List.range (d.month - 1)).map fun m => Date.daysInMonth d.year (m + 1)).sum + d.day

namespace Datetime

/-- The ordinal of the first of January of 1970. -/
def epoch : Nat := 719163

/-- The seconds since 1970. -/
def seconds (d : Datetime) : Int :=
  86400 * ((d.date.toordinal : Int) - epoch) + 3600 * d.hour + 60 * d.minute + d.second

def microseconds (d : Datetime) : Int := 1000000 * d.seconds + d.microsecond

/-- The moment to the second, as the text has it. -/
def truncated (d : Datetime) : Datetime :=
  { d with
    microsecond := 0
    real := ⟨d.real.1, d.real.2.1, d.real.2.2.1, d.real.2.2.2.1, by decide⟩ }

/-- The constructor of `datetime`, none where it raises ValueError. -/
def make (year month day hour minute second : Nat) : Option Datetime :=
  if h : (⟨year, month, day⟩ : Date).Real ∧ hour < 24 ∧ minute < 60 ∧ second < 60 then
    some ⟨⟨year, month, day⟩, hour, minute, second, 0, h.1, h.2.1, h.2.2.1, h.2.2.2, by decide⟩
  else none

/-- `fields.Datetime.to_string`. A year is not padded. -/
def toText (d : Datetime) : String :=
  d.date.iso ++ " " ++ zeroPad 2 d.hour ++ ":" ++ zeroPad 2 d.minute ++ ":" ++ zeroPad 2 d.second

def format : List Char := "%Y-%m-%d %H:%M:%S".toList

/-- `format[:len(text) - 2]` -/
def formatFor (text : String) : List Char :=
  if 2 ≤ text.length then format.take (text.length - 2)
  else format.take (format.length + text.length - 2)

/-- `fields.Datetime.to_datetime` of a value that is not empty. -/
def ofJson : Json → Except Exn Datetime
  | .str text =>
    match read (formatFor text) text.toList with
    | none => .error .valueError
    | some values =>
      let value (d : Directive) (default : Nat) : Nat := (values.lookup d).getD default
      match make (value .year 1900) (value .month 1) (value .day 1) (value .hour 0) (value .minute 0)
        (value .second 0) with
      | some d => .ok d
      | none => .error .valueError
  | _ => .error (.library "TypeError")

/-! ### The text of a point in time -/

def directives : List Directive :=
  [.year, .literal '-', .month, .literal '-', .day, .space, .hour, .literal ':', .minute, .literal ':',
    .second]

theorem compile_format : compile format = some directives := by decide

theorem toText_toList (d : Datetime) : d.toText.toList = (toString d.date.year).toList ++ '-' ::
    ((zeroPad 2 d.date.month).toList ++ '-' :: ((zeroPad 2 d.date.day).toList ++ ' ' ::
      ((zeroPad 2 d.hour).toList ++ ':' :: ((zeroPad 2 d.minute).toList ++ ':' ::
        (zeroPad 2 d.second).toList)))) := by
  simp [toText, Date.iso]

theorem lengths (d : Datetime) : (zeroPad 2 d.date.month).toList.length = 2 ∧
    (zeroPad 2 d.date.day).toList.length = 2 ∧ (zeroPad 2 d.hour).toList.length = 2 ∧
    (zeroPad 2 d.minute).toList.length = 2 ∧ (zeroPad 2 d.second).toList.length = 2 := by
  obtain ⟨hreal, hhour, hminute, hsecond, -⟩ := d.real
  obtain ⟨-, hm, hd⟩ := yyyymmdd_lengths hreal
  exact ⟨hm, hd, zeroPad_length (by decide) (by omega), zeroPad_length (by decide) (by omega),
    zeroPad_length (by decide) (by omega)⟩

theorem toText_length (d : Datetime) : d.toText.length = (toString d.date.year).length + 15 := by
  obtain ⟨hm, hd, hh, hmin, hs⟩ := d.lengths
  rw [← String.length_toList, toText_toList, ← String.length_toList]
  simp only [List.length_append, List.length_cons, hm, hd, hh, hmin, hs]

theorem ofJson_toText (d : Datetime) (h : 1000 ≤ d.date.year) :
    ofJson (.str d.toText) = .ok d.truncated := by
  have hreal := d.real
  obtain ⟨⟨hy, hy9999, hm, hm12, hd, hlast⟩, hhour, hminute, hsecond, -⟩ := hreal
  have hdays : d.date.day ≤ 31 := hlast.trans (daysInMonth_le _ _)
  have hyear : toString d.date.year = zeroPad 4 d.date.year := (zeroPad_of_le 4 h).symm
  have hlen : (toString d.date.year).length = 4 := by
    rw [hyear, ← String.length_toList]
    exact zeroPad_length (by decide) (by omega)
  have hformat : formatFor d.toText = format := by
    rw [formatFor, if_pos (by rw [toText_length]; omega), toText_length, hlen]
    rfl
  obtain ⟨t, u, hchars, ht, -⟩ := zeroPad_two (n := d.hour) (by omega)
  have hblank : (alternatives .space (' ' :: ((zeroPad 2 d.hour).toList ++ ':' ::
      ((zeroPad 2 d.minute).toList ++ ':' :: (zeroPad 2 d.second).toList)))).head? =
      some (0, (zeroPad 2 d.hour).toList ++ ':' ::
        ((zeroPad 2 d.minute).toList ++ ':' :: (zeroPad 2 d.second).toList)) := by
    rw [hchars]
    exact space_head (not_isSpace_of_isDigit ht)
  have hseconds : (alternatives .second (zeroPad 2 d.second).toList).head? = some (d.second, []) := by
    have hlast : (alternatives .second ((zeroPad 2 d.second).toList ++ [])).head? = some (d.second, []) :=
      second_head hsecond
    rwa [List.append_nil] at hlast
  have hread : (readings directives d.toText.toList).head? = some ([d.date.year, 0, d.date.month, 0,
      d.date.day, 0, d.hour, 0, d.minute, 0, d.second], []) := by
    rw [toText_toList, hyear]
    exact readings_cons (year_head (by omega)) <| readings_cons literal_head <|
      readings_cons (month_head ⟨hm, hm12⟩) <| readings_cons literal_head <|
      readings_cons (day_head ⟨hd, hdays⟩) <| readings_cons hblank <|
      readings_cons (hour_head hhour) <| readings_cons literal_head <|
      readings_cons (minute_head hminute) <| readings_cons literal_head <|
      readings_cons hseconds rfl
  have hmake : make d.date.year d.date.month d.date.day d.hour d.minute d.second = some d.truncated :=
    dif_pos ⟨d.real.1, hhour, hminute, hsecond⟩
  unfold ofJson
  simp only [hformat, read_eq compile_format hread]
  exact hmake ▸ rfl

theorem year_dashed {digits rest : List Char} (hlen : digits.length < 4) (hrest : 4 ≤ rest.length) :
    alternatives .year (digits ++ '-' :: rest) = [] := by
  have hdash : decimal? '-' = none := by decide
  match digits, rest, hlen, hrest with
  | [], a :: b :: c :: _ :: _, _, _ => simp [alternatives, hdash]
  | [_], a :: b :: _ :: _ :: _, _, _ => simp [alternatives, hdash]
  | [_, _], a :: _ :: _ :: _ :: _, _, _ => simp [alternatives, hdash]
  | [_, _, _], _ :: _ :: _ :: _ :: _, _, _ => simp [alternatives, hdash]

theorem ofJson_toText_early (d : Datetime) (h : d.date.year < 1000) :
    ofJson (.str d.toText) = .error .valueError := by
  have hlen : (toString d.date.year).length < 4 := by
    have hdigits := (Nat.length_toDigits_le_iff (b := 10) (n := d.date.year) (k := 3) (by decide)
      (by decide)).mpr h
    rw [Nat.toString_eq_ofList_toDigits, String.length_ofList]
    omega
  have hsome : 0 < (toString d.date.year).length := by
    rw [Nat.toString_eq_ofList_toDigits, String.length_ofList]
    exact Nat.length_toDigits_pos
  have hformat : ∀ parts, compile (formatFor d.toText) = some parts → parts.head? = some .year := by
    have hshort : ∀ k ∈ [14, 15, 16], ∀ parts ∈ compile (format.take k), parts.head? = some .year := by
      decide
    intro parts hparts
    rw [formatFor, if_pos (by rw [toText_length]; omega), toText_length] at hparts
    refine hshort _ ?_ parts hparts
    simp only [List.mem_cons, List.not_mem_nil, or_false]
    omega
  have hnone : read (formatFor d.toText) d.toText.toList = none := by
    refine read_none hformat ?_
    rw [toText_toList]
    refine year_dashed (by rwa [String.length_toList]) ?_
    obtain ⟨hm, hd, -⟩ := d.lengths
    simp only [List.length_append, List.length_cons, hm, hd]
    omega
  unfold ofJson
  simp only [hnone]

/-! ### Order -/

theorem truncated_le (d : Datetime) : d.truncated.microseconds ≤ d.microseconds := by
  have hseconds : d.truncated.seconds = d.seconds := rfl
  have hzero : d.truncated.microsecond = 0 := rfl
  rw [microseconds, microseconds, hseconds, hzero]
  omega

theorem sum_le_mul {l : List Nat} (bound : Nat) (h : ∀ n ∈ l, n ≤ bound) : l.sum ≤ bound * l.length := by
  simpa [mul_comm] using List.sum_le_card_nsmul l bound h

theorem seconds_early (d : Datetime) (h : d.date.year < 1000) : d.seconds < 0 := by
  obtain ⟨⟨hy, -, hm, hm12, hd, hlast⟩, hhour, hminute, hsecond, -⟩ := d.real
  have hdays : d.date.day ≤ 31 := hlast.trans (daysInMonth_le _ _)
  have hmonths : ((List.range (d.date.month - 1)).map fun m =>
      Date.daysInMonth d.date.year (m + 1)).sum ≤ 31 * (d.date.month - 1) := by
    have hsum := sum_le_mul 31 (l := (List.range (d.date.month - 1)).map fun m =>
      Date.daysInMonth d.date.year (m + 1)) (by simp [daysInMonth_le])
    simpa using hsum
  have hordinal : d.date.toordinal < epoch := by
    rw [Date.toordinal, epoch]
    omega
  rw [seconds]
  omega

end Datetime

/-! ## The cache -/

/-- The entries of the cache, by service. -/
abbrev TokenCache := List (String × Json)

/-- What `_read_cached_token` returns. -/
structure Credentials where
  token : Json
  sign : Json
  expiration : Datetime

namespace TokenCache

def keyError (key : String) : Exn := .library s!"KeyError: '{key}'"
def attributeError : Exn := .library "AttributeError: no attribute 'get'"

/-- One entry of `_read_cached_token`. -/
def readEntry (now : Nat) (entry : Json) : Except Exn (Option Credentials) := do
  if !entry.truthy then return none
  let some fields := entry.fields? | throw attributeError
  match fields.lookup "expiration" with
  | none => return none
  | some expiration =>
    if !expiration.truthy then return none
    match Datetime.ofJson expiration with
    | .error _ => return none
    | .ok expiresAt =>
      if expiresAt.seconds ≤ now + tokenRenewalMarginSeconds then return none
      let some token := fields.lookup "token" | throw (keyError "token")
      let some sign := fields.lookup "sign" | throw (keyError "sign")
      return some ⟨token, sign, expiresAt⟩

def readCachedToken (now : Nat) (cache : TokenCache) (service : String) :
    Except Exn (Option Credentials) :=
  match cache.lookup service with
  | none => .ok none
  | some entry => readEntry now entry

/-- `cache[key] = value` of a dict. -/
def setItem (key : String) (value : Json) : TokenCache → TokenCache
  | [] => [(key, value)]
  | (k, old) :: rest => if k = key then (k, value) :: rest else (k, old) :: setItem key value rest

def storedEntry (token sign : String) (expiration : Datetime) : Json :=
  .obj [("token", .str token), ("sign", .str sign), ("expiration", .str expiration.toText)]

def storeToken (cache : TokenCache) (service token sign : String) (expiration : Datetime) : TokenCache :=
  setItem service (storedEntry token sign expiration) cache

end TokenCache

/-! ## The runner: `tools/arca_homologation_runner.py` -/

namespace Runner

/-- TICKET_RENEWAL_MARGIN_MINUTES -/
def ticketRenewalMarginMinutes : Nat := 15

/-- `ticket_is_usable` of the runner, with a margin of its own. -/
def ticketIsUsable (expiresAt : Option Datetime) (now : Nat) : Bool :=
  match expiresAt with
  | none => false
  | some expiresAt => decide ((ticketRenewalMarginMinutes * 60 : Nat) < expiresAt.seconds - now)

/-- What `run_ticket_status` prints of one entry. -/
inductive TicketLine
  | unreadable
  | expires (raw : Option Json) (usable : Bool)

/-- One entry of `run_ticket_status`. -/
def ticketStatus (now : Nat) (entry : Json) : Except Exn TicketLine := do
  let raw ← if !entry.truthy then .ok none
    else match entry.fields? with
      | some fields => .ok (fields.lookup "expiration")
      | none => .error TokenCache.attributeError
  match raw with
  | none => return .expires raw (ticketIsUsable none now)
  | some value =>
    if !value.truthy then return .expires raw (ticketIsUsable none now)
    match Datetime.ofJson value with
    | .error _ => return .unreadable
    | .ok expiresAt => return .expires raw (ticketIsUsable (some expiresAt) now)

/-- A ticket that the runner cannot read is not reusable. -/
def TicketLine.reusable : TicketLine → Bool
  | .unreadable => false
  | .expires _ usable => usable

end Runner

/-! ## What is read after a ticket is stored -/

namespace TokenCache

theorem lookup_of_ne {key other : String} {value : Json} {cache : TokenCache} (h : other ≠ key) :
    List.lookup other ((key, value) :: cache) = cache.lookup other := by
  rw [List.lookup_cons, beq_eq_false_iff_ne.mpr h]

theorem lookup_setItem_self {key : String} {value : Json} {cache : TokenCache} :
    (setItem key value cache).lookup key = some value := by
  induction cache with
  | nil => exact List.lookup_cons_self
  | cons entry rest ih =>
    unfold setItem
    split
    · next hkey => rw [hkey, List.lookup_cons_self]
    · next hkey => rw [lookup_of_ne (Ne.symm hkey), ih]

theorem lookup_setItem_ne {key other : String} {value : Json} {cache : TokenCache} (h : other ≠ key) :
    (setItem key value cache).lookup other = cache.lookup other := by
  induction cache with
  | nil => rw [setItem, lookup_of_ne h]
  | cons entry rest ih =>
    obtain ⟨k, old⟩ := entry
    unfold setItem
    split
    · next hkey => rw [hkey, lookup_of_ne h, lookup_of_ne h]
    · by_cases hk : other = k
      · rw [hk, List.lookup_cons_self, List.lookup_cons_self]
      · rw [lookup_of_ne hk, lookup_of_ne hk, ih]

theorem toText_truthy (d : Datetime) : (Json.str d.toText).truthy = true := by
  have hne : d.toText ≠ "" := by
    intro hempty
    have hlen := d.toText_length
    rw [hempty, String.length_empty] at hlen
    omega
  simp [Json.truthy, hne]

theorem readEntry_stored (now : Nat) (token sign : String) (expiration : Datetime) :
    readEntry now (storedEntry token sign expiration) = .ok (
      if now + tokenRenewalMarginSeconds < expiration.truncated.seconds then
        some ⟨.str token, .str sign, expiration.truncated⟩
      else none) := by
  have hentry : (storedEntry token sign expiration).truthy = true := rfl
  have hfields : (storedEntry token sign expiration).fields? = some [("token", .str token),
    ("sign", .str sign), ("expiration", .str expiration.toText)] := rfl
  have hexpiration : [("token", Json.str token), ("sign", .str sign),
    ("expiration", .str expiration.toText)].lookup "expiration" = some (.str expiration.toText) := rfl
  have hsame : expiration.truncated.seconds = expiration.seconds := rfl
  unfold readEntry
  simp only [hentry, hfields, hexpiration, toText_truthy]
  by_cases hyear : 1000 ≤ expiration.date.year
  · rw [Datetime.ofJson_toText expiration hyear]
    by_cases hlive : now + tokenRenewalMarginSeconds < expiration.truncated.seconds
    · simp only [if_neg (not_le.mpr hlive), if_pos hlive]
      rfl
    · simp only [if_pos (not_lt.mp hlive), if_neg hlive]
      rfl
  · have hearly := expiration.seconds_early (not_le.mp hyear)
    have hdead : ¬ now + tokenRenewalMarginSeconds < expiration.truncated.seconds := by omega
    rw [Datetime.ofJson_toText_early expiration (not_le.mp hyear)]
    simp only [if_neg hdead]
    rfl

/-! ## The two programs on one entry -/

/-- The expiry that both compare with the clock. -/
def expiry (entry : Json) : Except Exn (Option Datetime) :=
  if entry.truthy then
    match entry.fields? with
    | none => .error attributeError
    | some fields =>
      match fields.lookup "expiration" with
      | none => .ok none
      | some value =>
        if value.truthy then
          match Datetime.ofJson value with
          | .error _ => .ok none
          | .ok expiresAt => .ok (some expiresAt)
        else .ok none
  else .ok none

/-- What is returned of an entry that is good for longer than the margin. -/
def credentials (entry : Json) (expiresAt : Datetime) : Except Exn (Option Credentials) :=
  match entry.fields? with
  | none => .error attributeError
  | some fields =>
    match fields.lookup "token", fields.lookup "sign" with
    | none, _ => .error (keyError "token")
    | some _, none => .error (keyError "sign")
    | some token, some sign => .ok (some ⟨token, sign, expiresAt⟩)

theorem readEntry_eq (now : Nat) (entry : Json) : readEntry now entry =
    match expiry entry with
    | .error e => .error e
    | .ok none => .ok none
    | .ok (some expiresAt) =>
      if expiresAt.seconds ≤ now + tokenRenewalMarginSeconds then .ok none
      else credentials entry expiresAt := by
  unfold readEntry expiry credentials
  cases entry.truthy with
  | false => rfl
  | true =>
    cases entry.fields? with
    | none => rfl
    | some fields =>
      cases hexpiration : fields.lookup "expiration" with
      | none => simp [hexpiration, pure, Except.pure]
      | some value =>
        cases hvalue : value.truthy with
        | false => simp [hexpiration, hvalue, pure, Except.pure]
        | true =>
          cases hread : Datetime.ofJson value with
          | error e => simp [hexpiration, hvalue, hread, pure, Except.pure]
          | ok expiresAt =>
            cases htoken : fields.lookup "token" <;> cases hsign : fields.lookup "sign" <;>
              simp [hexpiration, hvalue, hread, htoken, hsign, pure, Except.pure, throw, throwThe,
                MonadExceptOf.throw]

theorem ticketStatus_eq (now : Nat) (entry : Json) :
    (Runner.ticketStatus now entry).map Runner.TicketLine.reusable =
      (expiry entry).map fun expiresAt => Runner.ticketIsUsable expiresAt now := by
  unfold Runner.ticketStatus expiry
  cases entry.truthy with
  | false => rfl
  | true =>
    cases entry.fields? with
    | none => rfl
    | some fields =>
      cases hexpiration : fields.lookup "expiration" with
      | none =>
        simp [hexpiration, pure, Except.pure, bind, Except.bind, Except.map,
          Runner.TicketLine.reusable]
      | some value =>
        cases hvalue : value.truthy with
        | false =>
          simp [hexpiration, hvalue, pure, Except.pure, bind, Except.bind, Except.map,
            Runner.TicketLine.reusable]
        | true =>
          cases hread : Datetime.ofJson value with
          | error e =>
            simp [hexpiration, hvalue, hread, pure, Except.pure, bind, Except.bind, Except.map,
              Runner.TicketLine.reusable, Runner.ticketIsUsable]
          | ok expiresAt =>
            simp [hexpiration, hvalue, hread, pure, Except.pure, bind, Except.bind, Except.map,
              Runner.TicketLine.reusable]

theorem margins_agree : Runner.ticketRenewalMarginMinutes * 60 = tokenRenewalMarginSeconds := rfl

theorem ticketIsUsable_iff {expiresAt : Datetime} {now : Nat} :
    Runner.ticketIsUsable (some expiresAt) now = true ↔
      ¬ expiresAt.seconds ≤ now + tokenRenewalMarginSeconds := by
  rw [Runner.ticketIsUsable, margins_agree, decide_eq_true_eq, not_le]
  omega

theorem ticketIsUsable_eq_false {expiresAt : Datetime} {now : Nat}
    (h : expiresAt.seconds ≤ now + tokenRenewalMarginSeconds) :
    Runner.ticketIsUsable (some expiresAt) now = false := by
  rw [← Bool.not_eq_true, ticketIsUsable_iff, not_not]
  exact h

/-- The runner calls an entry reusable exactly where its ticket is not refused for its expiry, and
then its token and sign are returned, if it has both. -/
structure Agrees (now : Nat) (entry : Json) : Prop where
  refused : (Runner.ticketStatus now entry).map Runner.TicketLine.reusable = .ok false ↔
    readEntry now entry = .ok none
  reused : ∀ fields token sign, entry = .obj fields → fields.lookup "token" = some token →
    fields.lookup "sign" = some sign →
    ((Runner.ticketStatus now entry).map Runner.TicketLine.reusable = .ok true ↔
      ∃ expiresAt, readEntry now entry = .ok (some ⟨token, sign, expiresAt⟩))

theorem credentials_ne_none {entry : Json} {expiresAt : Datetime} :
    credentials entry expiresAt ≠ .ok none := by
  unfold credentials
  split
  · exact nofun
  · split <;> exact nofun

theorem agrees (now : Nat) (entry : Json) : Agrees now entry := by
  constructor
  · rw [ticketStatus_eq, readEntry_eq]
    rcases hexpiry : expiry entry with e | (_ | expiresAt)
    · exact ⟨nofun, nofun⟩
    · exact ⟨fun _ => rfl, fun _ => rfl⟩
    · by_cases hold : expiresAt.seconds ≤ now + tokenRenewalMarginSeconds
      · simp [Except.map, ticketIsUsable_eq_false hold, hold]
      · simp [Except.map, ticketIsUsable_iff.mpr hold, hold, credentials_ne_none]
  · rintro fields token sign rfl htoken hsign
    have hcredentials : ∀ expiresAt, credentials (.obj fields) expiresAt =
        .ok (some ⟨token, sign, expiresAt⟩) := by
      intro expiresAt
      simp [credentials, Json.fields?, htoken, hsign]
    rw [ticketStatus_eq, readEntry_eq]
    rcases hexpiry : expiry (.obj fields) with e | (_ | expiresAt)
    · exact ⟨nofun, nofun⟩
    · exact ⟨nofun, nofun⟩
    · by_cases hold : expiresAt.seconds ≤ now + tokenRenewalMarginSeconds
      · simp [Except.map, ticketIsUsable_eq_false hold, hold]
      · simp [Except.map, ticketIsUsable_iff.mpr hold, hold, hcredentials]

/-! ## A ticket in the cache -/

/-- What is read of the cache after a ticket is stored. -/
structure Cached (now : Nat) (cache : TokenCache) (service token sign : String)
    (expiration : Datetime) : Prop where
  own : readCachedToken now (cache.storeToken service token sign expiration) service = .ok (
    if now + tokenRenewalMarginSeconds < expiration.truncated.seconds then
      some ⟨.str token, .str sign, expiration.truncated⟩
    else none)
  life : ∀ found,
    readCachedToken now (cache.storeToken service token sign expiration) service = .ok (some found) →
      found.expiration.microseconds ≤ expiration.microseconds
  others : ∀ other, other ≠ service →
    readCachedToken now (cache.storeToken service token sign expiration) other =
      readCachedToken now cache other
  runner : ∀ entry, Agrees now entry

theorem readCachedToken_own (now : Nat) (cache : TokenCache) (service token sign : String)
    (expiration : Datetime) :
    readCachedToken now (cache.storeToken service token sign expiration) service = .ok (
      if now + tokenRenewalMarginSeconds < expiration.truncated.seconds then
        some ⟨.str token, .str sign, expiration.truncated⟩
      else none) := by
  rw [readCachedToken, storeToken, lookup_setItem_self]
  exact readEntry_stored now token sign expiration

theorem readCachedToken_others (now : Nat) (cache : TokenCache) {service other : String}
    (token sign : String) (expiration : Datetime) (h : other ≠ service) :
    readCachedToken now (cache.storeToken service token sign expiration) other =
      readCachedToken now cache other := by
  rw [readCachedToken, storeToken, lookup_setItem_ne h, readCachedToken]

/-- A stored ticket is read for as long as it is good for more than the margin, the other
services are left as they were, and the runner agrees on every entry. -/
theorem ticket_cached (now : Nat) (cache : TokenCache) (service token sign : String)
    (expiration : Datetime) : Cached now cache service token sign expiration := by
  refine ⟨readCachedToken_own now cache service token sign expiration, fun found hfound => ?_,
    fun other hother => readCachedToken_others now cache token sign expiration hother, agrees now⟩
  rw [readCachedToken_own, Except.ok.injEq] at hfound
  split at hfound
  · obtain rfl := Option.some.inj hfound
    exact expiration.truncated_le
  · cases hfound

example : (Datetime.make 2026 12 31 23 59 59).map Datetime.toText = some "2026-12-31 23:59:59" := by
  decide

/-! ## The cache of a certificate -/

/-- The texts of a ticket, and its expiry on the clock. -/
def Credentials.ticket (c : Credentials) : Option Ticket :=
  match c.token, c.sign with
  | .str token, .str sign => some ⟨token, sign, c.expiration.seconds.toNat⟩
  | _, _ => none

/-- The stored cache says what the cache of the certificate does, at every moment. -/
def Shows (cache : TokenCache) (c : Certificate) : Prop :=
  ∀ now service, ∃ found, readCachedToken now cache service = .ok found ∧
    found.bind Credentials.ticket = ArcaEdi.readCachedToken now c service

theorem shows_nil {c : Certificate} (h : c.tokenCache = []) : Shows [] c :=
  fun now service => ⟨none, rfl, by simp [ArcaEdi.readCachedToken, Certificate.cached, h]⟩

theorem Shows.store {cache : TokenCache} {c : Certificate} (h : Shows cache c)
    (service token sign : String) (expiration : Datetime) :
    Shows (cache.storeToken service token sign expiration)
      (c.storeToken service ⟨token, sign, expiration.truncated.seconds.toNat⟩) := by
  intro now other
  by_cases hother : other = service
  · subst hother
    refine ⟨_, readCachedToken_own .., ?_⟩
    rw [ArcaEdi.readCachedToken, cached_storeToken_self]
    by_cases hlive : now + tokenRenewalMarginSeconds < expiration.truncated.seconds
    · rw [if_pos hlive]
      simp only
      rw [if_neg (by omega)]
      rfl
    · rw [if_neg hlive]
      simp only
      rw [if_pos (by omega)]
      rfl
  · obtain ⟨found, hfound, hsame⟩ := h now other
    refine ⟨found, by rw [readCachedToken_others now cache token sign expiration hother, hfound], ?_⟩
    rw [hsame, ArcaEdi.readCachedToken, ArcaEdi.readCachedToken, cached_storeToken_ne hother]

end TokenCache

end ArcaEdi
