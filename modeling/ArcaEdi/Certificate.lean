import Mathlib.Algebra.GroupWithZero.Nat
import ArcaEdi.Lib.PyText
import ArcaEdi.Records

/-!
# Companies' CUITs and certificates

The certificate life cycle of `l10n_ar_arca_certificate.py`, one function per
action, and the issuer CUIT of `res_company.py`. Each action takes the clock
and returns the record that it leaves behind.
-/

namespace ArcaEdi

/-! ## CUIT -/

def cuitCheckWeights : List Nat := [5, 4, 3, 2, 7, 6, 5, 4, 3, 2]

/-- `int(d)` of one character that `isdigit` accepts. -/
def digitValue (d : Char) : Except Exn Nat :=
  match PyText.decimal? d with
  | some n => .ok n
  | none => .error .valueError

/-- None where ARCA assigns no CUIT to the first ten digits. -/
def computeCuitCheckDigit (firstTenDigits : List Char) : Except Exn (Option Nat) := do
  let values ← firstTenDigits.mapM digitValue
  let total := (List.zipWith (· * ·) values cuitCheckWeights).sum
  let check := 11 - total % 11
  if check = 11 then return some 0
  else if check = 10 then return none
  else return some check

/-- `is_valid_cuit`: eleven digits, and the last one checks the others. -/
def isValidCuit (value : String) : Except Exn Bool := do
  let digits := (PyText.keepDigits value).toList
  if digits.length ≠ 11 then return false
  match ← computeCuitCheckDigit (digits.take 10), digits[10]? with
  | some expected, some last => return expected == (← digitValue last)
  | _, _ => return false

/-- `_l10n_ar_arca_issuer_cuit`: the digits of the VAT, where they are a CUIT. -/
def Company.issuerCuit (company : Company) : Except Exn String := do
  let digits := PyText.keepDigits (company.vat.getD "")
  if ← isValidCuit digits then return digits
  throw (.userError
    (s!"Company '{company.displayName}' needs a valid CUIT before it can issue electronic "
      ++ "invoices: it is the number reported to ARCA as the issuer. Set it on the company's "
      ++ "contact."))

/-! ## Use -/

namespace Certificate

/-- `_check_usable`. It also marks a stale record as expired, but it raises right
after, so the transaction that made the mark never commits. -/
def checkUsable (now : Nat) (c : Certificate) : Except Exn Unit :=
  if c.state = .revoked then throw (.userError s!"Certificate '{c.name}' was revoked.")
  else if c.state = .expired then
    throw (.userError
      (s!"Certificate '{c.name}' expired on {c.certDateEnd.getD 0}. Generate a new CSR and upload "
        ++ "the certificate ARCA issues for it."))
  else if c.state ≠ .active then
    throw (.userError
      (s!"Certificate '{c.name}' is not active yet. Upload the certificate issued by ARCA first."))
  else if c.certDateEnd.any (· < now) then
    throw (.userError s!"Certificate '{c.name}' has expired.")
  else if c.privateKey.isNone then
    throw (.userError s!"Certificate '{c.name}' has no private key stored.")
  else if c.certificate.isNone then
    throw (.userError s!"Certificate '{c.name}' has no certificate file stored.")
  else return ()

/-- `_get_holder_cuit`: digits alone, of any number. -/
def getHolderCuit (c : Certificate) : String := PyText.keepDigits c.holderCuit

def loadPrivateKey (c : Certificate) : Except Exn PrivateKey :=
  match c.privateKey with
  | some key => .ok key
  | none => .error (.userError s!"Certificate '{c.name}' has no private key.")

/-! ## Actions -/

/-- `action_generate_key_and_csr`, with the key that the server draws. -/
def actionGenerateKeyAndCsr (canWrite : Bool) (key : PrivateKey) (c : Certificate) :
    Except Exn Certificate := do
  if !canWrite then throw .accessError
  if c.state = .active then
    throw (.userError
      (s!"Certificate '{c.name}' is active. Generating a new key would make the certificate ARCA "
        ++ "issued unusable. Create a new record instead."))
  if c.state ≠ .draft then
    throw (.userError
      (s!"A CSR was already generated for certificate '{c.name}'. Generating another would replace "
        ++ "the private key, and the certificate ARCA issues for the CSR you already uploaded would "
        ++ "be unusable.\n\nIf that CSR is not the one you want, create a new certificate record."))
  return { c with
    privateKey := some key
    csrPem := some ⟨key.publicNumbers, s!"CUIT {c.getHolderCuit}"⟩
    state := .csrGenerated }

/-- `_check_certificate_holder_cuit`. A file that names nobody passes. -/
def checkCertificateHolderCuit (c : Certificate) (cert : X509) : Except Exn Unit :=
  match cert.subjectSerial with
  | none => return ()
  | some serial =>
    let digits := PyText.keepDigits serial
    if digits ≠ "" ∧ digits ≠ c.getHolderCuit then
      throw (.userError
        (s!"That certificate was issued to CUIT {digits} but this record names {c.getHolderCuit} "
          ++ s!"as its holder.\n\nIf {digits} is the person who created the certificate in the ARCA "
          ++ "portal, correct the holder here. The CUIT being invoiced for is taken from the company "
          ++ "and does not have to match."))
    else return ()

/-- `action_process_certificate`. A file that is not a certificate is none. -/
def actionProcessCertificate (now : Nat) (file : Option X509) (c : Certificate) :
    Except Exn Certificate := do
  let some cert := file | throw (.userError "That file is not a valid PEM certificate.")
  let key ← c.loadPrivateKey
  if cert.publicNumbers ≠ key.publicNumbers then
    throw (.userError
      (s!"This certificate does not match the private key stored on '{c.name}'. Upload the "
        ++ "certificate ARCA issued for this record's CSR."))
  c.checkCertificateHolderCuit cert
  if cert.notAfter < now then
    throw (.userError s!"That certificate expired on {cert.notAfter}.")
  if cert.notBefore > now then
    throw (.userError s!"That certificate is not valid until {cert.notBefore}.")
  return { c with
    certificate := some (.pem cert)
    certDateStart := some cert.notBefore
    certDateEnd := some cert.notAfter
    state := .active
    tokenCache := [] }

/-- `action_revoke`: the key is gone for good. -/
def actionRevoke (c : Certificate) : Certificate :=
  { c with state := .revoked, tokenCache := [], privateKey := none }

/-- `_cron_check_certificate_expiration`, on one record that its search may find. -/
def cronCheckExpiration (now : Nat) (c : Certificate) : Certificate :=
  if c.state = .active ∧ c.certDateEnd.any (· < now) then
    { c with state := .expired, tokenCache := [] }
  else c

/-- `_store_token`: one ticket per service. -/
def storeToken (service : String) (ticket : Ticket) (c : Certificate) : Certificate :=
  { c with tokenCache := (service, ticket) :: c.tokenCache.filter (·.1 ≠ service) }

end Certificate

end ArcaEdi
