import ArcaEdi.Lib.Table
import ArcaEdi.Actions
import ArcaEdi.Registry
import ArcaEdi.TicketCache

/-!
# The database of the homologation

What the scripts under `tools/` read and write: the companies, the rows of the
certificates with their columns of bytes, the external identifier that pins one of
them, and the SHA of the code.
-/

namespace ArcaEdi.Homologation

/-- What Odoo and cryptography make of a text that may be base64 of a PEM. -/
structure Cryptography (T : Type) where
  /-- OCTET_LENGTH -/
  size : T → Nat
  privateKey : T → Option PrivateKey
  certificate : T → Option X509

/-- `bool(value)` of a binary field, where NULL is none. -/
def Cryptography.present {T : Type} (crypto : Cryptography T) (value : Option T) : Bool :=
  value.any (crypto.size · != 0)

/-! ## Rows -/

structure StoredCompany extends Company where
  active : Bool
  autoRequestCae : Bool
  deriving DecidableEq, Repr

/-- A certificate row with its material as text, which may or may not be readable. -/
structure StoredCertificate (T : Type) where
  name : String
  companyId : Nat
  holderCuit : String
  environment : Environment
  state : CertificateState := .draft
  privateKey : Option T := none
  certificate : Option T := none
  certDateStart : Option Nat := none
  certDateEnd : Option Nat := none
  tokenCache : Json := .null

/-- A row of `ir.model.data`: the record that an external identifier names. -/
structure ModelData where
  model : String
  resId : Nat
  deriving DecidableEq, Repr

def certificateModel : String := "l10n_ar.arca.certificate"

/-- All that the two tools read and write. -/
structure Database (T : Type) where
  moduleInstalled : Bool
  /-- The columns of `l10n_ar_arca_certificate` that are named like a material field. -/
  materialColumns : List String
  companies : Table Nat StoredCompany
  certificates : Table Nat (StoredCertificate T)
  /-- The rows of `ir.model.data` with the identifier of the certificate. -/
  modelData : List ModelData
  /-- The records of other models that an identifier may name. -/
  otherRecords : List ModelData
  /-- The certificate of each old attachment that claims a material field. -/
  legacyAttachments : List Nat
  installedSha : Option String
  attempts : List Attempt

variable {T : Type}

def Database.browse (db : Database T) (k : Nat) : Except Exn (StoredCertificate T) :=
  match db.certificates.lookup k with
  | some row => .ok row
  | none => .error (.library "MissingError: Record does not exist or has been deleted.")

def Database.legacyCount (db : Database T) (k : Nat) : Nat := db.legacyAttachments.count k

/-- `env.ref` of the identifier. It is none where no record stands behind a row. -/
def Database.ref (db : Database T) : Option ModelData :=
  db.modelData.head?.filter fun row =>
    if row.model = certificateModel then (db.certificates.lookup row.resId).isSome
    else db.otherRecords.contains row

/-- The tickets of a cache, by service. -/
def StoredCertificate.tickets (row : StoredCertificate T) : TokenCache := row.tokenCache.fields?.getD []

/-! ## The actions of a certificate -/

section Actions

variable (crypto : Cryptography T)

namespace StoredCertificate

/-- The record that the row is, its tickets apart. What cryptography does not read is
no key. -/
def record (row : StoredCertificate T) : Certificate where
  name := row.name
  companyId := row.companyId
  holderCuit := row.holderCuit
  environment := row.environment
  state := row.state
  privateKey := (row.privateKey.filter (crypto.size · != 0)).bind crypto.privateKey
  certificate := (row.certificate.filter (crypto.size · != 0)).map fun text =>
    ((crypto.certificate text).map CertificateFile.pem).getD .other
  certDateStart := row.certDateStart
  certDateEnd := row.certDateEnd

def loadPrivateKey (row : StoredCertificate T) : Except Exn PrivateKey :=
  match row.privateKey.filter (crypto.size · != 0) with
  | none => .error (.userError s!"Certificate '{row.name}' has no private key.")
  | some text =>
    match crypto.privateKey text with
    | some key => .ok key
    | none => .error (.userError s!"The private key of certificate '{row.name}' could not be read.")

def loadCertificate (row : StoredCertificate T) : Except Exn X509 :=
  match (row.certificate.filter (crypto.size · != 0)).bind crypto.certificate with
  | some cert => .ok cert
  | none => .error (.userError s!"The certificate file of '{row.name}' could not be parsed.")

/-- `_check_usable`, where any bytes count as a key or a certificate. -/
def checkUsable (now : Nat) (row : StoredCertificate T) : Except Exn Unit :=
  if row.state = .revoked then throw (.userError s!"Certificate '{row.name}' was revoked.")
  else if row.state = .expired then
    throw (.userError
      (s!"Certificate '{row.name}' expired on {row.certDateEnd.getD 0}. Generate a new CSR and upload "
        ++ "the certificate ARCA issues for it."))
  else if row.state ≠ .active then
    throw (.userError
      (s!"Certificate '{row.name}' is not active yet. Upload the certificate issued by ARCA first."))
  else if row.certDateEnd.any (· < now) then
    throw (.userError s!"Certificate '{row.name}' has expired.")
  else if !crypto.present row.privateKey then
    throw (.userError s!"Certificate '{row.name}' has no private key stored.")
  else if !crypto.present row.certificate then
    throw (.userError s!"Certificate '{row.name}' has no certificate file stored.")
  else return ()

/-- The row with a new certificate. Its tickets were issued for the old one. -/
def installed (row : StoredCertificate T) (text : T) (cert : X509) : StoredCertificate T :=
  { row with
    certificate := some text
    certDateStart := some cert.notBefore
    certDateEnd := some cert.notAfter
    state := .active
    tokenCache := .null }

def actionProcessCertificate (now : Nat) (text : T) (row : StoredCertificate T) :
    Except Exn (StoredCertificate T) := do
  let some cert := crypto.certificate text
    | throw (.userError "That file is not a valid PEM certificate.")
  let _ ← row.loadPrivateKey crypto
  -- Each check on a certificate that was read, with its key, is the record's.
  let _ ← (row.record crypto).actionProcessCertificate now (some cert)
  return row.installed text cert

variable {crypto} {row row' : StoredCertificate T} {now : Nat} {text : T} {key : PrivateKey} {cert : X509}

theorem loadPrivateKey_eq_ok :
    row.loadPrivateKey crypto = .ok key ↔ (row.record crypto).privateKey = some key := by
  simp only [loadPrivateKey, record]
  cases row.privateKey.filter (crypto.size · != 0) with
  | none => simp
  | some text => cases h : crypto.privateKey text <;> simp [h]

theorem loadCertificate_eq_ok :
    row.loadCertificate crypto = .ok cert ↔ (row.record crypto).certificate = some (.pem cert) := by
  simp only [loadCertificate, record]
  cases row.certificate.filter (crypto.size · != 0) with
  | none => simp
  | some text => cases h : crypto.certificate text <;> simp [h]

theorem present_privateKey (h : (row.record crypto).privateKey = some key) :
    crypto.present row.privateKey = true := by
  obtain ⟨text, htext, -⟩ := Option.bind_eq_some_iff.mp h
  obtain ⟨hstored, hsize⟩ := Option.filter_eq_some_iff.mp htext
  simpa [Cryptography.present, hstored] using hsize

theorem present_certificate :
    crypto.present row.certificate = (row.record crypto).certificate.isSome := by
  simp only [record, Cryptography.present, Option.isSome_map]
  cases row.certificate with
  | none => rfl
  | some text => cases h : crypto.size text != 0 <;> simp [Option.filter, h]

theorem present_file {file : CertificateFile} (h : (row.record crypto).certificate = some file) :
    crypto.present row.certificate = true := by
  rw [present_certificate, h]
  rfl

/-! ## What each action does -/

theorem record_installed (hsize : crypto.size text ≠ 0) (hcert : crypto.certificate text = some cert) :
    (row.installed text cert).record crypto = (row.record crypto).installed cert := by
  simp [record, installed, Certificate.installed, Option.filter, hsize, hcert]

theorem process_eq_ok :
    row.actionProcessCertificate crypto now text = .ok row' ↔
      ∃ cert, crypto.certificate text = some cert ∧ (row.record crypto).Accepts now cert ∧
        row' = row.installed text cert := by
  unfold actionProcessCertificate
  constructor
  · intro h
    split at h
    · next cert hcert =>
      simp only [Raise.bind_eq_ok, Raise.pure_eq_ok, Certificate.process_eq_ok] at h
      obtain ⟨key, -, c, ⟨cert', hsame, haccepts, -⟩, rfl⟩ := h
      obtain rfl := Option.some.inj hsame
      exact ⟨cert, hcert, haccepts, rfl⟩
    · exact absurd h Raise.throw_ne_ok
  · rintro ⟨cert, hcert, haccepts, rfl⟩
    obtain ⟨key, hkey, -⟩ := haccepts.key
    simp only [hcert, Raise.bind_eq_ok, Raise.pure_eq_ok, Certificate.process_eq_ok]
    exact ⟨key, loadPrivateKey_eq_ok.mpr hkey, _, ⟨cert, rfl, haccepts, rfl⟩, trivial⟩

theorem checkUsable_eq_ok :
    row.checkUsable crypto now = .ok () ↔
      row.state = .active ∧ (∀ last, row.certDateEnd = some last → now ≤ last) ∧
        crypto.present row.privateKey ∧ crypto.present row.certificate := by
  simp only [checkUsable, Raise.ite_throw_eq_ok, Raise.pure_eq_ok]
  constructor
  · rintro ⟨-, -, hactive, hend, hkey, hcert, -⟩
    refine ⟨not_not.mp hactive, fun last hlast => ?_, by simpa using hkey, by simpa using hcert⟩
    simpa [hlast] using hend
  · rintro ⟨hactive, hend, hkey, hcert⟩
    refine ⟨by simp [hactive], by simp [hactive], by simp [hactive], ?_, by simp [hkey],
      by simp [hcert], trivial⟩
    cases hlast : row.certDateEnd with
    | none => simp
    | some last => simpa using hend last hlast

theorem checkUsable_record (h : (row.record crypto).privateKey = some key) :
    (row.record crypto).checkUsable now = row.checkUsable crypto now := by
  have hkey : (row.record crypto).privateKey.isNone = !crypto.present row.privateKey := by
    rw [present_privateKey h, h]
    rfl
  have hcert : (row.record crypto).certificate.isNone = !crypto.present row.certificate := by
    rw [present_certificate]
    cases (row.record crypto).certificate <;> rfl
  unfold checkUsable Certificate.checkUsable
  rw [hkey, hcert]
  rfl

end StoredCertificate

end Actions

end ArcaEdi.Homologation
