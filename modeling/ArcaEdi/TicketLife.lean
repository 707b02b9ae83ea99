import ArcaEdi.Lib.Calendar
import ArcaEdi.TicketCache

/-!
# How long a ticket lives

ARCA says in a zone of its own until when a ticket is good. `_parse_login_response` turns
that into UTC, the cache keeps it to the second, and `_read_cached_token` reads the text.
The request for a ticket, in turn, says its own life in ARCA's zone.
-/

namespace ArcaEdi

open PyText

theorem Date.daysInMonth_eq (year month : Nat) :
    Date.daysInMonth year month = Calendar.daysInMonth (Calendar.isLeap year) month := by
  simp [Date.daysInMonth, Calendar.daysInMonth, Calendar.isLeap]

theorem Date.toordinal_eq (d : Date) : d.toordinal = Calendar.ordinal d.year d.month d.day := by
  simp only [Date.toordinal, Calendar.ordinal, Calendar.daysBeforeYear, Calendar.daysBeforeMonth,
    Date.daysInMonth_eq]

namespace Datetime

/-! ## Arithmetic -/

/-- The microseconds of a day. -/
def day : Nat := 86400000000

/-- `date.fromordinal` -/
def dateAt (ordinal : Nat) : Date :=
  ⟨(Calendar.ofOrdinal ordinal).1, (Calendar.ofOrdinal ordinal).2.1, (Calendar.ofOrdinal ordinal).2.2⟩

theorem dateAt_real {n : Nat} (h : 1 ≤ n) (hmax : n ≤ Calendar.maxOrdinal) : (dateAt n).Real := by
  obtain ⟨⟨hyear, hmonth, hday⟩, -⟩ := Calendar.ofOrdinal_spec h
  exact ⟨hyear, Calendar.ofOrdinal_year h hmax, hmonth.1, hmonth.2, hday.1,
    by rw [Date.daysInMonth_eq]; exact hday.2⟩

theorem dateAt_toordinal {n : Nat} (h : 1 ≤ n) : (dateAt n).toordinal = n := by
  rw [Date.toordinal_eq]
  exact (Calendar.ofOrdinal_spec h).2

/-- The point of a day, by the microseconds that are over. -/
def combine (ordinal : Nat) (h : 1 ≤ ordinal ∧ ordinal ≤ Calendar.maxOrdinal) (time : Nat)
    (htime : time < day) : Datetime where
  date := dateAt ordinal
  hour := time / 3600000000
  minute := time / 60000000 % 60
  second := time / 1000000 % 60
  microsecond := time % 1000000
  real := by
    unfold day at htime
    exact ⟨dateAt_real h.1 h.2, by omega, by omega, by omega, by omega⟩

/-- Microseconds since the day before the first. -/
def total (d : Datetime) : Int :=
  day * d.date.toordinal + 3600000000 * d.hour + 60000000 * d.minute + 1000000 * d.second + d.microsecond

theorem total_lt_day (n : Int) : (n % day).toNat < day := by
  unfold day
  omega

/-- `d + timedelta(microseconds=delta)`, or none for OverflowError. -/
def add (d : Datetime) (delta : Int) : Option Datetime :=
  let sum := d.total + delta
  if h : 0 < sum / day ∧ sum / day ≤ Calendar.maxOrdinal then
    some (combine (sum / day).toNat (by omega) (sum % day).toNat (total_lt_day sum))
  else none

/-- The moments that a `datetime` can be at. -/
def InCalendar (t : Int) : Prop :=
  0 < (t + epoch * day) / day ∧ (t + epoch * day) / day ≤ Calendar.maxOrdinal

instance (t : Int) : Decidable (InCalendar t) := inferInstanceAs (Decidable (_ ∧ _))

theorem total_eq (d : Datetime) : d.total = d.microseconds + epoch * day := by
  simp only [total, microseconds, seconds, epoch, day]
  push_cast
  ring

theorem combine_total {sum : Int}
    (h : 1 ≤ (sum / day).toNat ∧ (sum / day).toNat ≤ Calendar.maxOrdinal) :
    (combine (sum / day).toNat h (sum % day).toNat (total_lt_day sum)).total = sum := by
  simp only [total, combine, dateAt_toordinal h.1]
  unfold day at h ⊢
  omega

theorem add_eq_some {d d' : Datetime} {delta : Int} (h : d.add delta = some d') :
    d'.microseconds = d.microseconds + delta := by
  unfold add at h
  simp only at h
  split at h
  · next hrange =>
    have htotal : d'.total = d.total + delta := by
      rw [← Option.some.inj h]
      exact combine_total _
    rw [total_eq, total_eq] at htotal
    omega
  · cases h

theorem add_isSome (d : Datetime) (delta : Int) :
    (d.add delta).isSome ↔ InCalendar (d.microseconds + delta) := by
  have hsum : d.microseconds + delta + epoch * day = d.total + delta := by
    rw [total_eq]
    ring
  unfold add InCalendar
  rw [hsum]
  simp only
  split <;> simp [*]

theorem seconds_eq (d : Datetime) : d.seconds = d.microseconds / 1000000 := by
  have hmicro := d.real.2.2.2.2
  unfold microseconds
  omega

/-- A date beyond Python's calendar. -/
def overflow : Exn := .library "OverflowError: date value out of range"

/-- `d + timedelta(microseconds=delta)` -/
def plus (d : Datetime) (delta : Int) : Except Exn Datetime :=
  match d.add delta with
  | some d' => .ok d'
  | none => .error overflow

theorem plus_eq_ok {d d' : Datetime} {delta : Int} (h : d.plus delta = .ok d') :
    d'.microseconds = d.microseconds + delta := by
  unfold plus at h
  split at h
  · next d'' hadd =>
    rw [← Except.ok.inj h]
    exact add_eq_some hadd
  · cases h

/-- A point at the moment that it should be at, where the calendar has that moment. -/
inductive Lands : Except Exn Int → Except Exn Datetime → Prop
  | inside {d : Datetime} (h : InCalendar d.microseconds) : Lands (.ok d.microseconds) (.ok d)
  | outside {t : Int} (h : ¬ InCalendar t) : Lands (.ok t) (.error overflow)
  | raised (e : Exn) : Lands (.error e) (.error e)

theorem plus_lands (d : Datetime) (delta : Int) :
    Lands (.ok (d.microseconds + delta)) (d.plus delta) := by
  have hsome := d.add_isSome delta
  unfold plus
  cases hadd : d.add delta with
  | none =>
    rw [hadd] at hsome
    exact .outside fun h => Bool.false_ne_true (hsome.mpr h)
  | some d' =>
    rw [hadd, ← add_eq_some hadd] at hsome
    rw [← add_eq_some hadd]
    exact .inside (hsome.mp rfl)

end Datetime

open Datetime TokenCache Raise

/-! ## Points as ISO 8601 writes them -/

/-- A point as a text states it. The offset is in microseconds, and none where there is none. -/
structure Stated where
  point : Datetime
  offset : Option Int
  deriving DecidableEq

namespace Iso

/-- The offset of a zone, in minutes. -/
def zoneText (minutes : Int) : String :=
  (if minutes < 0 then "-" else "+") ++ zeroPad 2 (minutes.natAbs / 60) ++ ":" ++
    zeroPad 2 (minutes.natAbs % 60)

/-- `isoformat(timespec='seconds')` -/
def isoformat (d : Datetime) (minutes : Int) : String :=
  d.date.isoformat ++ "T" ++ zeroPad 2 d.hour ++ ":" ++ zeroPad 2 d.minute ++ ":" ++
    zeroPad 2 d.second ++ zoneText minutes

/-! ### Reading -/

def number (width : Nat) (chars : List Char) : Option (Nat × List Char) :=
  if (chars.take width).length = width ∧ (chars.take width).all Char.isDigit then
    some (Nat.ofDigitChars 10 (chars.take width) 0, chars.drop width)
  else none

def literal (c : Char) : List Char → Option (List Char)
  | d :: rest => if d = c then some rest else none
  | [] => none

/-- Milliseconds or microseconds. -/
def fraction : List Char → Option (Nat × List Char)
  | '.' :: rest =>
    (number 6 rest).orElse fun _ => (number 3 rest).map fun (n, rest) => (1000 * n, rest)
  | rest => some (0, rest)

/-- What is left of a text after its time, in microseconds. -/
def zone : List Char → Option (Option Int)
  | [] => some none
  | sign :: rest => do
    let (hours, rest) ← number 2 rest
    let rest ← literal ':' rest
    let (minutes, rest) ← number 2 rest
    if rest ≠ [] ∨ 24 ≤ hours ∨ 60 ≤ minutes then none
    else
      let offset : Int := 60000000 * (60 * hours + minutes)
      if sign = '+' then some (some offset) else if sign = '-' then some (some (-offset)) else none

/-- Three numbers with a separator between them. -/
def triple (first : Nat) (separator : Char) (chars : List Char) : Option ((Nat × Nat × Nat) × List Char) := do
  let (a, rest) ← number first chars
  let rest ← literal separator rest
  let (b, rest) ← number 2 rest
  let rest ← literal separator rest
  let (c, rest) ← number 2 rest
  return ((a, b, c), rest)

def withMicrosecond (d : Datetime) (n : Nat) : Option Datetime :=
  if h : n < 1000000 then
    some { d with
      microsecond := n
      real := ⟨d.real.1, d.real.2.1, d.real.2.2.1, d.real.2.2.2.1, h⟩ }
  else none

/-- The text of a point, with a `T` before its time. -/
def read (text : String) : Option Stated := do
  let ((year, month, day), rest) ← triple 4 '-' text.toList
  let rest ← literal 'T' rest
  let ((hour, minute, second), rest) ← triple 2 ':' rest
  let (microsecond, rest) ← fraction rest
  let offset ← zone rest
  let point ← Datetime.make year month day hour minute second
  return ⟨← withMicrosecond point microsecond, offset⟩

theorem number_zeroPad {width n : Nat} (hw : 0 < width) (h : n < 10 ^ width) (rest : List Char) :
    number width ((zeroPad width n).toList ++ rest) = some (n, rest) := by
  have hlen := zeroPad_length hw h
  have hdigits : (zeroPad width n).toList.all Char.isDigit = true :=
    List.all_eq_true.mpr fun c hc => zeroPad_isDigit hc
  unfold number
  rw [List.take_left' hlen, List.drop_left' hlen, if_pos ⟨hlen, hdigits⟩, zeroPad_value]

theorem literal_self (c : Char) (rest : List Char) : literal c (c :: rest) = some rest := if_pos rfl

theorem zone_zoneText {minutes : Int} (h : minutes.natAbs < 1440) :
    zone (zoneText minutes).toList = some (some (60000000 * minutes)) := by
  have hhours := number_zeroPad Nat.two_pos (show minutes.natAbs / 60 < 10 ^ 2 by omega)
    (':' :: (zeroPad 2 (minutes.natAbs % 60)).toList)
  have hminutes := number_zeroPad Nat.two_pos (show minutes.natAbs % 60 < 10 ^ 2 by omega) []
  rw [List.append_nil] at hminutes
  have hrange : ¬ (([] : List Char) ≠ [] ∨ 24 ≤ minutes.natAbs / 60 ∨ 60 ≤ minutes.natAbs % 60) := by
    simp only [ne_eq, not_true_eq_false, false_or]
    omega
  have hoffset : (60 * (minutes.natAbs / 60 : Nat) + (minutes.natAbs % 60 : Nat) : Int) =
      minutes.natAbs := by omega
  by_cases hneg : minutes < 0
  · have htext : (zoneText minutes).toList = '-' :: ((zeroPad 2 (minutes.natAbs / 60)).toList ++
        ':' :: (zeroPad 2 (minutes.natAbs % 60)).toList) := by
      simp [zoneText, hneg]
    rw [htext]
    simp only [zone, hhours, literal_self, hminutes, bind, Option.bind, if_neg hrange, hoffset]
    rw [if_neg (by decide), if_pos trivial]
    exact congrArg (fun t : Int => some (some t)) (by omega)
  · have htext : (zoneText minutes).toList = '+' :: ((zeroPad 2 (minutes.natAbs / 60)).toList ++
        ':' :: (zeroPad 2 (minutes.natAbs % 60)).toList) := by
      simp [zoneText, hneg]
    rw [htext]
    simp only [zone, hhours, literal_self, hminutes, bind, Option.bind, if_neg hrange, hoffset]
    rw [if_pos trivial]
    exact congrArg (fun t : Int => some (some t)) (by omega)

theorem isoformat_toList (d : Datetime) (minutes : Int) : (isoformat d minutes).toList =
    (zeroPad 4 d.date.year).toList ++ '-' :: ((zeroPad 2 d.date.month).toList ++ '-' ::
      ((zeroPad 2 d.date.day).toList ++ 'T' :: ((zeroPad 2 d.hour).toList ++ ':' ::
        ((zeroPad 2 d.minute).toList ++ ':' :: ((zeroPad 2 d.second).toList ++
          (zoneText minutes).toList))))) := by
  simp [isoformat, Date.isoformat]

theorem triple_zeroPad {first a b c : Nat} (hfirst : 0 < first) (ha : a < 10 ^ first)
    (hb : b < 10 ^ 2) (hc : c < 10 ^ 2) (separator : Char) (rest : List Char) :
    triple first separator ((zeroPad first a).toList ++ separator :: ((zeroPad 2 b).toList ++
      separator :: ((zeroPad 2 c).toList ++ rest))) = some ((a, b, c), rest) := by
  simp only [triple, number_zeroPad hfirst ha, number_zeroPad Nat.two_pos hb,
    number_zeroPad Nat.two_pos hc, literal_self, bind, Option.bind, pure]

theorem fraction_zoneText (minutes : Int) :
    fraction (zoneText minutes).toList = some (0, (zoneText minutes).toList) := by
  by_cases hneg : minutes < 0 <;> simp [zoneText, hneg, fraction]

theorem read_isoformat (d : Datetime) {minutes : Int} (h : minutes.natAbs < 1440) :
    read (isoformat d minutes) = some ⟨d.truncated, some (60000000 * minutes)⟩ := by
  obtain ⟨⟨-, hy9999, -, hm12, -, hlast⟩, hhour, hminute, hsecond, -⟩ := d.real
  have hdays : d.date.day ≤ 31 := hlast.trans (daysInMonth_le _ _)
  have hdate := triple_zeroPad (Nat.succ_pos 3) (show d.date.year < 10 ^ 4 by omega)
    (show d.date.month < 10 ^ 2 by omega) (show d.date.day < 10 ^ 2 by omega) '-'
  have htime := triple_zeroPad Nat.two_pos (show d.hour < 10 ^ 2 by omega)
    (show d.minute < 10 ^ 2 by omega) (show d.second < 10 ^ 2 by omega) ':'
  have hmake : Datetime.make d.date.year d.date.month d.date.day d.hour d.minute d.second =
      some d.truncated := dif_pos ⟨d.real.1, hhour, hminute, hsecond⟩
  have hmicro : withMicrosecond d.truncated 0 = some d.truncated := dif_pos (by decide)
  unfold read
  simp only [isoformat_toList, hdate, htime, literal_self, fraction_zoneText, zone_zoneText h, hmake,
    hmicro, bind, Option.bind, pure]

end Iso

/-! ## The answer of `loginCms` -/

/-- How Python reads a text, and what it takes from the machine. -/
structure Machine where
  /-- `datetime.fromisoformat` -/
  fromisoformat : String → Except Exn Stated
  /-- The offset of the machine's zone, which `astimezone` gives to a point without one. -/
  localOffset : Datetime → Except Exn Int

/-- What lxml finds in the answer. -/
structure LoginDocument where
  token : Option String
  sign : Option String
  expirationTime : Option String

/-- A machine that reads these texts and no others, in a zone of its own. -/
def Iso.machine (offset : Int) : Machine where
  fromisoformat text :=
    match Iso.read text with
    | some p => .ok p
    | none => .error .valueError
  localOffset _ := .ok offset

namespace Machine

variable (M : Machine)

/-- How far from UTC the text stands. Where it says nothing, it is the machine's zone. -/
def offset (p : Stated) : Except Exn Int :=
  match p.offset with
  | some offset => .ok offset
  | none => M.localOffset p.point

/-- `astimezone(timezone.utc).replace(tzinfo=None)` -/
def toUtc (p : Stated) : Except Exn Datetime := do
  let offset ← M.offset p
  p.point.plus (-offset)

/-- The end of the ticket, where `now` is `fields.Datetime.now()`. -/
def expiration (now : Datetime) (text : Option String) : Except Exn Datetime :=
  match text.filter (· ≠ "") with
  | none => now.plus 3600000000
  | some text =>
    match M.fromisoformat text >>= M.toUtc with
    | .ok d => .ok d
    | .error .valueError => now.plus 3600000000
    | .error e => .error e

/-- `_parse_login_response`: token and sign first, then the end. -/
def parseLoginResponse (now : Datetime) (r : LoginDocument) :
    Except Exn (String × String × Datetime) :=
  match r.token, r.sign with
  | some token, some sign =>
    if token = "" ∨ sign = "" then
      raiseArca .businessError "The ARCA authentication response contained no credentials."
    else do return (token, sign, ← M.expiration now r.expirationTime)
  | _, _ => raiseArca .businessError "The ARCA authentication response contained no credentials."

/-- `_authenticate`, from an answer that can be parsed on. -/
def authenticate (now : Datetime) (cache : TokenCache) (service : String) (r : LoginDocument) :
    Except Exn TokenCache := do
  let (token, sign, expiration) ← M.parseLoginResponse now r
  return cache.storeToken service token sign expiration

/-! ### Moments -/

/-- The moment that the text states, in microseconds since 1970. -/
def moment (p : Stated) : Except Exn Int := do return p.point.microseconds - (← M.offset p)

/-- The moment at which the ticket ends. It is an hour from now where ARCA does not say. -/
def ends (now : Datetime) (text : Option String) : Except Exn Int :=
  match text.filter (· ≠ "") with
  | none => .ok (now.microseconds + 3600000000)
  | some text =>
    match M.fromisoformat text >>= M.moment with
    | .ok t => .ok t
    | .error .valueError => .ok (now.microseconds + 3600000000)
    | .error e => .error e

variable {M}

theorem toUtc_lands (p : Stated) : Lands (M.moment p) (M.toUtc p) := by
  unfold moment toUtc
  cases M.offset p with
  | error e => exact .raised e
  | ok offset => exact plus_lands p.point (-offset)

theorem expiration_lands (now : Datetime) (text : Option String) :
    Lands (M.ends now text) (M.expiration now text) := by
  have hhour := plus_lands now 3600000000
  unfold ends expiration
  cases text.filter (· ≠ "") with
  | none => exact hhour
  | some text =>
    simp only
    cases M.fromisoformat text with
    | error e => cases e <;> first | exact hhour | exact .raised _
    | ok p =>
      have hp := toUtc_lands (M := M) p
      simp only [bind, Except.bind]
      generalize M.moment p = t at hp
      generalize M.toUtc p = d at hp
      cases hp with
      | inside h => exact .inside h
      | outside h => exact .outside h
      | raised e => cases e <;> first | exact hhour | exact .raised _

/-- The answer has credentials. -/
structure Credited (r : LoginDocument) (token sign : String) : Prop where
  hasToken : r.token = some token
  hasSign : r.sign = some sign
  nonempty : token ≠ "" ∧ sign ≠ ""

theorem authenticate_eq {r : LoginDocument} {token sign : String} (h : Credited r token sign)
    (now : Datetime) (cache : TokenCache) (service : String) :
    M.authenticate now cache service r =
      (M.expiration now r.expirationTime).map (cache.storeToken service token sign) := by
  have hne : ¬ (token = "" ∨ sign = "") := not_or.mpr h.nonempty
  unfold authenticate parseLoginResponse
  simp only [h.hasToken, h.hasSign, if_neg hne]
  cases M.expiration now r.expirationTime <;> rfl

/-- The cache with the new ticket, which is good until `t`. -/
structure Lives (cache cache' : TokenCache) (service token sign : String) (t : Int) : Prop where
  own : ∃ expiration : Datetime, expiration.microseconds ≤ t ∧ ∀ clock : Nat,
    TokenCache.readCachedToken clock cache' service = .ok (
      if clock + tokenRenewalMarginSeconds < t / 1000000 then
        some ⟨.str token, .str sign, expiration⟩
      else none)
  others : ∀ (clock : Nat) (other : String), other ≠ service →
    TokenCache.readCachedToken clock cache' other = TokenCache.readCachedToken clock cache other

theorem storeToken_lives (cache : TokenCache) (service token sign : String) (expiration : Datetime) :
    Lives cache (cache.storeToken service token sign expiration) service token sign
      expiration.microseconds := by
  refine ⟨⟨expiration.truncated, expiration.truncated_le, fun clock => ?_⟩,
    fun clock other hother => readCachedToken_others clock cache token sign expiration hother⟩
  rw [readCachedToken_own, ← seconds_eq]
  rfl

/-- In whatever zone ARCA says until when the ticket is good, it is served until the margin
before that very moment, to the second. Without a readable end it is taken to be good for
an hour. A moment that the calendar of Python does not have stores nothing. -/
theorem ticket_lives (M : Machine) (now : Datetime) (cache : TokenCache) (service : String)
    {r : LoginDocument} {token sign : String} (h : Credited r token sign) :
    (∀ t, M.ends now r.expirationTime = .ok t → InCalendar t → ∃ cache',
      M.authenticate now cache service r = .ok cache' ∧ Lives cache cache' service token sign t) ∧
    (∀ t, M.ends now r.expirationTime = .ok t → ¬ InCalendar t →
      M.authenticate now cache service r = .error overflow) ∧
    ∀ e, M.ends now r.expirationTime = .error e → M.authenticate now cache service r = .error e := by
  rw [authenticate_eq h]
  have hlands := M.expiration_lands now r.expirationTime
  generalize M.ends now r.expirationTime = moment at hlands
  generalize M.expiration now r.expirationTime = expiration at hlands
  cases hlands with
  | @inside d hin =>
    refine ⟨fun t ht _ => ?_, fun t ht hout => ?_, nofun⟩ <;> obtain rfl := Except.ok.inj ht
    · exact ⟨_, rfl, storeToken_lives cache service token sign d⟩
    · exact absurd hin hout
  | outside hout =>
    refine ⟨fun t ht hin => ?_, fun t ht _ => rfl, nofun⟩
    obtain rfl := Except.ok.inj ht
    exact absurd hin hout
  | raised e =>
    refine ⟨nofun, nofun, fun e' he => ?_⟩
    obtain rfl := Except.error.inj he
    rfl

theorem ticket_lives_arca : ∃ cache',
    (Iso.machine 0).authenticate ⟨⟨2026, 1, 15⟩, 13, 15, 30, 0, by decide⟩ [] "wsfe"
      ⟨some "PD94", some "Kx3f", some "2026-01-15T22:15:30.123-03:00"⟩ = .ok cache' ∧
    Lives [] cache' "wsfe" "PD94" "Kx3f" 1768526130123000 :=
  (ticket_lives (Iso.machine 0) _ [] "wsfe" ⟨rfl, rfl, by decide⟩).1 _
    (by decide +kernel) (by decide +kernel)

/-! ### The cache of the certificate -/

/-- The end that the answer states, on the clock. None where it is missing or unreadable. -/
def stated (M : Machine) (text : Option String) : Except Exn (Option Nat) :=
  match text.filter (· ≠ "") with
  | none => .ok none
  | some text =>
    match M.fromisoformat text >>= M.toUtc with
    | .ok d => .ok (some d.seconds.toNat)
    | .error .valueError => .ok none
    | .error e => .error e

theorem plus_hour {now d : Datetime} (hnow : 0 ≤ now.seconds) (h : now.plus 3600000000 = .ok d) :
    d.seconds.toNat = now.seconds.toNat + 3600 := by
  have hmoment := plus_eq_ok h
  have hseconds : d.seconds = now.seconds + (3600 : Nat) := by
    rw [seconds_eq, seconds_eq]
    omega
  rw [hseconds, Int.toNat_add hnow (Int.natCast_nonneg _), Int.toNat_natCast]

theorem expiration_stated {now d : Datetime} {text : Option String} (hnow : 0 ≤ now.seconds)
    (h : M.expiration now text = .ok d) : ∃ stated, M.stated text = .ok stated ∧
      d.seconds.toNat = stated.getD (now.seconds.toNat + 60 * 60) := by
  unfold expiration at h
  unfold stated
  cases htext : text.filter (· ≠ "") with
  | none =>
    rw [htext] at h
    exact ⟨none, rfl, plus_hour hnow h⟩
  | some text =>
    rw [htext] at h
    simp only at h ⊢
    cases hread : M.fromisoformat text >>= M.toUtc with
    | ok d' =>
      rw [hread] at h
      exact ⟨_, rfl, by rw [Option.getD_some, Except.ok.inj h]⟩
    | error e =>
      rw [hread] at h
      cases e with
      | valueError => exact ⟨none, rfl, plus_hour hnow h⟩
      | _ => cases h

theorem expiration_error {now : Datetime} {text : Option String} {e : Exn} :
    M.expiration now text = .error e ↔ M.stated text = .error e ∨
      M.stated text = .ok none ∧ now.plus 3600000000 = .error e := by
  unfold expiration stated
  cases text.filter (· ≠ "") with
  | none => simp
  | some text =>
    simp only
    cases M.fromisoformat text >>= M.toUtc with
    | ok d => simp
    | error e' => cases e' <;> simp

theorem loginCms_credited {r : LoginDocument} {token sign : String} (h : Credited r token sign)
    (now : Nat) (stated : Option Nat) :
    loginCms now (.response (.document r.token r.sign stated)) =
      .ok ⟨token, sign, stated.getD (now + 60 * 60)⟩ := by
  have hne : ¬ (token = "" ∨ sign = "") := not_or.mpr h.nonempty
  simp only [loginCms, ArcaEdi.parseLoginResponse, h.hasToken, h.hasSign, if_neg hne]

theorem authenticate_uncredited {r : LoginDocument} (h : ¬ ∃ token sign, Credited r token sign)
    (now : Datetime) (cache : TokenCache) (service : String) (clock : Nat) : ∃ e,
    M.authenticate now cache service r = .error e ∧
      ∀ stated, loginCms clock (.response (.document r.token r.sign stated)) = .error e := by
  unfold authenticate parseLoginResponse loginCms ArcaEdi.parseLoginResponse
  cases htoken : r.token with
  | none => exact ⟨_, rfl, fun _ => rfl⟩
  | some token =>
    cases hsign : r.sign with
    | none => exact ⟨_, rfl, fun _ => rfl⟩
    | some sign =>
      have hempty : token = "" ∨ sign = "" := by
        by_contra hne
        exact h ⟨token, sign, htoken, hsign, not_or.mp hne⟩
      simp only [if_pos hempty]
      exact ⟨_, rfl, fun _ => rfl⟩

/-- To log in is the same step in the stored cache and in the cache of the certificate. It
fails without credentials, there as here, or for an end that cannot be computed: then
nothing is stored. -/
theorem authenticate_shows {now : Datetime} {cache : TokenCache} {c : Certificate}
    {service : String} {r : LoginDocument} (hnow : 0 ≤ now.seconds) (hc : Shows cache c) :
    (∀ cache', M.authenticate now cache service r = .ok cache' → ∃ stated ticket,
      M.stated r.expirationTime = .ok stated ∧
      loginCms now.seconds.toNat (.response (.document r.token r.sign stated)) = .ok ticket ∧
      Shows cache' (c.storeToken service ticket)) ∧
    ∀ e, M.authenticate now cache service r = .error e ↔
      (∀ stated,
        loginCms now.seconds.toNat (.response (.document r.token r.sign stated)) = .error e) ∨
      (∃ token sign, Credited r token sign) ∧ (M.stated r.expirationTime = .error e ∨
        M.stated r.expirationTime = .ok none ∧ now.plus 3600000000 = .error e) := by
  by_cases hcredited : ∃ token sign, Credited r token sign
  · obtain ⟨token, sign, hr⟩ := hcredited
    rw [authenticate_eq hr]
    refine ⟨fun cache' h => ?_, fun e => ?_⟩
    · obtain ⟨d, hd, rfl⟩ := map_eq_ok.mp h
      obtain ⟨stated, hstated, hseconds⟩ := expiration_stated hnow hd
      refine ⟨stated, _, hstated, loginCms_credited hr _ stated, ?_⟩
      rw [← hseconds]
      exact hc.store service token sign d
    · have hlogin : ¬ ∀ stated,
          loginCms now.seconds.toNat (.response (.document r.token r.sign stated)) = .error e := by
        intro hall
        have hnone := hall none
        rw [loginCms_credited hr] at hnone
        cases hnone
      rw [or_iff_right hlogin, and_iff_right ⟨token, sign, hr⟩, ← expiration_error]
      cases M.expiration now r.expirationTime <;> simp [Except.map]
  · obtain ⟨e, hfails, hlogin⟩ := authenticate_uncredited (M := M) hcredited now cache service
      now.seconds.toNat
    rw [hfails]
    refine ⟨nofun, fun e' => ⟨fun he => .inl ?_, ?_⟩⟩
    · rwa [← Except.error.inj he]
    · rintro (hall | ⟨hr, -⟩)
      · exact congrArg _ (Except.error.inj ((hlogin none).symm.trans (hall none)))
      · exact absurd hr hcredited

/-- A quarter past one on 15 January. -/
def afternoon : Datetime := ⟨⟨2026, 1, 15⟩, 13, 15, 30, 0, by decide⟩

/-- A certificate, and the ticket that it has for another service. -/
def holding : Certificate :=
  Certificate.storeToken "wsfex" ⟨"PD94", "Kx3f", 1768482930⟩
    ⟨"arca", 0, "20-12345678-6", .testing, .active, none, none, none, none, none, []⟩

def holdingCache : TokenCache := TokenCache.storeToken [] "wsfex" "PD94" "Kx3f" afternoon

theorem holding_shows : Shows holdingCache holding := by
  have hseconds : afternoon.truncated.seconds.toNat = 1768482930 := by decide +kernel
  unfold holding
  rw [← hseconds]
  exact Shows.store (shows_nil rfl) "wsfex" "PD94" "Kx3f" afternoon

theorem authenticate_shows_beyond :
    (∃ cache', (Iso.machine 0).authenticate afternoon holdingCache "wsfe"
        ⟨some "QT05", some "Ly4g", some "9999-12-31T20:59:59.500-03:00"⟩ = .ok cache' ∧
      Shows cache' (holding.storeToken "wsfe" ⟨"QT05", "Ly4g", 253402300799⟩)) ∧
    (Iso.machine 0).authenticate afternoon holdingCache "wsfe"
      ⟨some "QT05", some "Ly4g", some "9999-12-31T23:59:59-03:00"⟩ = .error overflow := by
  have hnow : 0 ≤ afternoon.seconds := by decide +kernel
  refine ⟨?_, ((authenticate_shows hnow holding_shows).2 _).mpr
    (.inr ⟨⟨_, _, rfl, rfl, by decide⟩, .inl (by decide +kernel)⟩)⟩
  have hstored : ((Iso.machine 0).authenticate afternoon holdingCache "wsfe"
      ⟨some "QT05", some "Ly4g", some "9999-12-31T20:59:59.500-03:00"⟩).isOk = true := by
    decide +kernel
  cases h : (Iso.machine 0).authenticate afternoon holdingCache "wsfe"
      ⟨some "QT05", some "Ly4g", some "9999-12-31T20:59:59.500-03:00"⟩ with
  | error e =>
    rw [h] at hstored
    cases hstored
  | ok cache' =>
    obtain ⟨stated, ticket, hstated, hticket, hshows⟩ :=
      (authenticate_shows hnow holding_shows).1 cache' h
    have hend : (Iso.machine 0).stated (some "9999-12-31T20:59:59.500-03:00") =
        .ok (some 253402300799) := by decide +kernel
    obtain rfl := Except.ok.inj (hend.symm.trans hstated)
    obtain rfl := Except.ok.inj hticket
    exact ⟨cache', rfl, hshows⟩

end Machine

/-! ## The request for a ticket -/

/-- AR_TZ, in minutes. -/
def arZone : Int := -180

/-- TRA_VALIDITY_MINUTES -/
def traValidityMinutes : Int := 10

def traText (uniqueId : Nat) (generation expiration service : String) : String :=
  "<?xml version=\"1.0\" encoding=\"UTF-8\"?><loginTicketRequest version=\"1.0\"><header>" ++
    s!"<uniqueId>{uniqueId}</uniqueId><generationTime>{generation}</generationTime>" ++
    s!"<expirationTime>{expiration}</expirationTime></header><service>{service}</service>" ++
    "</loginTicketRequest>"

/-- `_build_tra`, where `now` is the moment in UTC. -/
def buildTra (now : Datetime) (uniqueId : Nat) (service : String) : Except Exn String := do
  let now ← now.plus (60000000 * arZone)
  let generation ← now.plus (-(60000000 * traValidityMinutes))
  let expiration ← now.plus (60000000 * traValidityMinutes)
  return traText uniqueId (Iso.isoformat generation arZone) (Iso.isoformat expiration arZone) service

/-- The text states this second, in ARCA's zone. -/
def StatesSecond (text : String) (t : Int) : Prop :=
  ∃ p, Iso.read text = some ⟨p, some (60000000 * arZone)⟩ ∧
    p.microseconds - 60000000 * arZone = 1000000 * t

theorem isoformat_states {d now : Datetime} (delta : Int)
    (h : d.microseconds = now.microseconds + 60000000 * arZone + 1000000 * delta) :
    StatesSecond (Iso.isoformat d arZone) (now.seconds + delta) := by
  refine ⟨d.truncated, Iso.read_isoformat d (by decide), ?_⟩
  have htruncated : d.truncated.microseconds = 1000000 * d.seconds := Int.add_zero _
  rw [htruncated, seconds_eq, seconds_eq, arZone] at *
  omega

/-- Whatever the day, the request says that it was made ten minutes ago and ends ten
minutes from now. -/
theorem tra_window {now : Datetime} {uniqueId : Nat} {service text : String}
    (h : buildTra now uniqueId service = .ok text) :
    ∃ generation expiration, text = traText uniqueId generation expiration service ∧
      StatesSecond generation (now.seconds - 600) ∧ StatesSecond expiration (now.seconds + 600) := by
  unfold buildTra at h
  obtain ⟨zoned, hzoned, h⟩ := bind_eq_ok.mp h
  obtain ⟨generation, hgeneration, h⟩ := bind_eq_ok.mp h
  obtain ⟨expiration, hexpiration, h⟩ := bind_eq_ok.mp h
  have hz := plus_eq_ok hzoned
  have hg := plus_eq_ok hgeneration
  have he := plus_eq_ok hexpiration
  refine ⟨_, _, (Except.ok.inj h).symm, isoformat_states (-600) ?_, isoformat_states 600 ?_⟩
  · rw [hg, hz, traValidityMinutes]
    omega
  · rw [he, hz, traValidityMinutes]
    omega

theorem tra_window_new_year : ∃ now text generation expiration,
    Datetime.make 2026 1 1 3 5 0 = some now ∧ buildTra now 7 "wsfe" = .ok text ∧
      text = traText 7 generation expiration "wsfe" ∧
      StatesSecond generation (now.seconds - 600) ∧ StatesSecond expiration (now.seconds + 600) := by
  let now : Datetime := ⟨⟨2026, 1, 1⟩, 3, 5, 0, 0, by decide⟩
  have hbuilt : (buildTra now 7 "wsfe").isOk = true := by decide +kernel
  cases h : buildTra now 7 "wsfe" with
  | error e =>
    rw [h] at hbuilt
    cases hbuilt
  | ok text =>
    obtain ⟨generation, expiration, hwindow⟩ := tra_window h
    exact ⟨now, text, generation, expiration, by decide, h, hwindow⟩

end ArcaEdi
