import ArcaEdi.AccountMove

/-!
# ARCA

What ARCA holds, and what it is assumed to do with a request: it records number
`n` of a line only as the last number plus one, at most once, and no later than
STALE_ATTEMPT_MINUTES after it was sent; what it refuses it never records; and
it answers truthfully.
-/

namespace ArcaEdi

/-- A sequence, as ARCA counts it. -/
structure Line where
  environment : Environment
  /-- `Auth.Cuit` -/
  cuit : Int
  ptoVta : Nat
  cbteTipo : Nat
  deriving DecidableEq, Repr

structure Coordinates where
  line : Line
  number : Nat
  deriving DecidableEq, Repr

structure Voucher where
  /-- The attempt whose request produced it. None for a voucher from elsewhere. -/
  origin : Option Nat
  cae : String
  deriving DecidableEq, Repr

/-- What ARCA made of a request. -/
inductive Fate
  | pending | recorded | refused
  deriving DecidableEq, Repr

/-- A FECAESolicitar that left this system. -/
structure Transmission where
  attempt : Nat
  environment : Environment
  cuit : Int
  header : FeCabReq
  detail : FeCaeDetRequest
  sentAt : Nat
  fate : Fate
  deriving DecidableEq

/-- The voucher that a request asks for. -/
def Transmission.coordinates (t : Transmission) : Coordinates :=
  ⟨⟨t.environment, t.cuit, t.header.ptoVta, t.header.cbteTipo⟩, t.detail.cbteDesde⟩

/-- The voucher that an attempt asked for, with the CUIT as `int` reads it. -/
def Evidence.coordinates (e : Evidence) : Option Coordinates :=
  (PyText.int? e.issuerCuit).map fun cuit =>
    ⟨⟨e.environment, cuit, e.posNumber, e.documentTypeCode⟩, e.documentNumber⟩

/-- What reached ARCA, the vouchers that it holds, and the last number of each line. -/
structure Arca where
  sent : List Transmission
  voucher : Coordinates → Option Voucher
  last : Line → Nat

namespace Arca

/-- ARCA issues the next number of a line, and issues it once. -/
def issue (arca : Arca) (c : Coordinates) (v : Voucher) : Option Arca :=
  if c.number = arca.last c.line + 1 ∧ arca.voucher c = none then
    some { arca with
      voucher := Function.update arca.voucher c (some v)
      last := Function.update arca.last c.line c.number }
  else none

/-- The request may still produce a voucher. -/
def alive (now : Nat) (t : Transmission) : Prop :=
  t.fate = .pending ∧ now ≤ t.sentAt + staleAttemptSeconds

instance (now : Nat) (t : Transmission) : Decidable (alive now t) :=
  inferInstanceAs (Decidable (_ ∧ _))

def settle (arca : Arca) (n : Nat) (fate : Fate) : Arca :=
  { arca with sent := arca.sent.modify n fun t => { t with fate := fate } }

/-- ARCA approves request `n` while it is on its way. -/
def record (arca : Arca) (now n : Nat) (cae : String) : Option Arca :=
  match arca.sent[n]? with
  | some t =>
    if alive now t then (arca.settle n .recorded).issue t.coordinates ⟨some t.attempt, cae⟩ else none
  | none => none

def refuse (arca : Arca) (n : Nat) : Option Arca :=
  match arca.sent[n]? with
  | some t => if t.fate = .pending then some (arca.settle n .refused) else none
  | none => none

/-! ## Truthful answers -/

/-- ARCA tells the last number that it issued, or the call fails. -/
def honestLast (arca : Arca) (line : Line) : SoapReply UltimoAutorizado → Bool
  | .response r => r.cbteNro.all (· == arca.last line)
  | _ => true

/-- The CAE of a voucher that the answer calls approved. -/
def grantedCae : SoapReply (Option CaeResponse) → Option String
  | .response (some r) => r.feDetResp.entries.head?.bind fun det =>
    if det.resultado = some "A" ∨ det.resultado = some "P" then det.cae else none
  | _ => none

/-- The answer says that there is no voucher: a SOAP fault, result R, or errors alone. -/
def saysRefused : SoapReply (Option CaeResponse) → Bool
  | .fault _ _ => true
  | .response (some r) =>
    match r.feDetResp.entries.head? with
    | some det => det.resultado == some "R"
    | none => collectErrors r.errors != []
  | _ => false

/-- A CAE is that of the voucher that was recorded, and a refusal is a refusal. -/
def honestCae (arca : Arca) (attempt : Nat) (reply : SoapReply (Option CaeResponse)) : Bool :=
  (grantedCae reply).all (fun cae => cae == "" ||
      arca.sent.any fun t => t.attempt == attempt && t.fate == .recorded &&
        (arca.voucher t.coordinates).any (·.cae == cae)) &&
    (!saysRefused reply || arca.sent.all fun t => t.attempt != attempt || t.fate == .refused)

/-- A voucher in the answer is the one that ARCA holds, and error 602 says that it holds none. -/
def honestConsult (arca : Arca) (c : Coordinates) : SoapReply (Option ConsultResponse) → Bool
  | .response (some r) =>
    (arca.voucher c = none ||
      !(collectErrors r.errors).any fun e => PyText.strip e.code == errorNoDataFound) &&
    r.resultGet.all fun found => (arca.voucher c).any fun v =>
      found.codAutorizacion.all fun cae => cae == "" || v.cae == cae
  | _ => true

/-! ### What the parser makes of an answer -/

/-- An answer is read as the voucher that it grants, or as an error: a refusal, where it
refuses, and an outcome that nobody knows otherwise. -/
inductive Read (reply : SoapReply (Option CaeResponse)) : Except Exn CaeResult → Prop
  | granted {result : CaeResult} (hcae : grantedCae reply = result.cae)
      (hrefused : saysRefused reply = false) : Read reply (.ok result)
  | error {e : ArcaError} (hcae : ∀ cae ∈ grantedCae reply, cae = "")
      (hrefused : saysRefused reply = (e.kind == .businessError)) : Read reply (.error (.arca e))

theorem raiseBusinessError_kind (errors : List Remark) : ∃ e : ArcaError,
    (raiseBusinessError errors : Except Exn CaeResult) = .error (.arca e) ∧
      e.kind = .businessError := by
  unfold raiseBusinessError
  split <;> exact ⟨_, rfl, rfl⟩

theorem read_response (r : CaeResponse) :
    Read (.response (some r)) (parseCaeResponse (some r)) := by
  cases hdet : r.feDetResp.entries with
  | nil =>
    have hcae : ∀ cae ∈ grantedCae (.response (some r)), cae = "" := by simp [grantedCae, hdet]
    simp only [parseCaeResponse, hdet]
    by_cases hnone : collectErrors r.errors = []
    · rw [if_pos hnone]
      exact .error hcae (by simp [saysRefused, hdet, hnone])
    · rw [if_neg hnone]
      obtain ⟨e, he, hkind⟩ := raiseBusinessError_kind (collectErrors r.errors)
      rw [he]
      exact .error hcae (by simp [saysRefused, hdet, hnone, hkind])
  | cons det rest =>
    have hgranted : grantedCae (.response (some r)) =
        if det.resultado = some "A" ∨ det.resultado = some "P" then det.cae else none := by
      simp [grantedCae, hdet]
    have hrefused : saysRefused (.response (some r)) = (det.resultado == some "R") := by
      simp [saysRefused, hdet]
    simp only [parseCaeResponse, hdet]
    split
    · next hr => exact .error (by simp [hgranted, hr]) (by rw [hrefused, hr]; rfl)
    · next hr =>
      have hnot : (det.resultado == some "R") = false := beq_false_of_ne hr
      split
      · next ha =>
        refine .error (fun cae hcae => ?_) (by rw [hrefused, hnot]; rfl)
        rw [hgranted, if_pos (.inl ha.1)] at hcae
        rcases ha.2 with hnone | hempty
        · rw [hnone] at hcae
          cases hcae
        · rw [hempty] at hcae
          exact (Option.mem_some.mp hcae).symm
      · split
        · next hp => exact .granted (by rw [hgranted, if_pos hp]) (hrefused.trans hnot)
        · next hp =>
          exact .error (by rw [hgranted, if_neg hp]; nofun) (by rw [hrefused, hnot]; rfl)

theorem read_reply (reply : SoapReply (Option CaeResponse)) : Read reply (feCaeSolicitar reply) := by
  cases reply with
  | response r =>
    cases r with
    | none => exact .error nofun rfl
    | some r => exact read_response r
  | fault message code => exact .error nofun rfl
  | transportError statusCode => exact .error nofun rfl
  | xmlSyntaxError => exact .error nofun rfl
  | exception exc =>
    refine .error nofun ?_
    change false = (classifyTransportException exc == .businessError)
    unfold classifyTransportException
    repeat' split
    all_goals rfl

variable {arca : Arca} {attempt : Nat} {reply : SoapReply (Option CaeResponse)}

theorem honestCae_ok {result : CaeResult} (h : feCaeSolicitar reply = .ok result) :
    arca.honestCae attempt reply = result.cae.all fun cae => cae == "" ||
      arca.sent.any fun t => t.attempt == attempt && t.fate == .recorded &&
        (arca.voucher t.coordinates).any (·.cae == cae) := by
  have hread := read_reply reply
  rw [h] at hread
  cases hread with
  | granted hcae hrefused => simp [honestCae, hcae, hrefused]

theorem honestCae_error {e : ArcaError} (h : feCaeSolicitar reply = .error (.arca e)) :
    arca.honestCae attempt reply = (e.kind != .businessError ||
      arca.sent.all fun t => t.attempt != attempt || t.fate == .refused) := by
  have hread := read_reply reply
  rw [h] at hread
  cases hread with
  | error hcae hrefused =>
    have hall : (grantedCae reply).all (fun cae => cae == "" ||
        arca.sent.any fun t => t.attempt == attempt && t.fate == .recorded &&
          (arca.voucher t.coordinates).any (·.cae == cae)) = true := by
      rw [Option.all_eq_true]
      intro cae hmem
      rw [hcae cae hmem]
      rfl
    rw [honestCae, hall, hrefused, Bool.true_and]
    rfl

end Arca

end ArcaEdi
