import Mathlib.Data.Rat.Defs
import ArcaEdi.Lib.Snapshot

/-!
# The records that the module keeps

One structure per Odoo model, with the fields that the modelled methods read or
write. Times are seconds, and a record id is a number.
-/

namespace ArcaEdi

inductive Environment
  | testing | production
  deriving DecidableEq, Repr

/-! ## Outcomes: `arca_errors.py` -/

/-- One `Err` or `Obs` entry of an ARCA answer. -/
structure Remark where
  code : String
  message : String
  deriving DecidableEq, Repr

inductive ArcaErrorKind
  /-- The request provably never reached ARCA. -/
  | aborted
  /-- ARCA answered and refused. -/
  | businessError
  /-- Another process holds the numbering lock. -/
  | sequenceBusy
  /-- The request was transmitted and the answer was lost. -/
  | uncertain
  deriving DecidableEq, Repr

structure ArcaError where
  kind : ArcaErrorKind
  message : String
  code : Option String := none
  observations : List Remark := []
  deriving DecidableEq, Repr

/-- What the code raises. -/
inductive Exn
  | arca (e : ArcaError)
  | userError (message : String)
  | accessError
  | valueError
  /-- Any other exception, as a library raised it. -/
  | library (message : String)
  deriving DecidableEq, Repr

/-! ## Certificates: `l10n_ar_arca_certificate.py` -/

inductive CertificateState
  | draft | csrGenerated | active | expired | revoked
  deriving DecidableEq, Repr

/-- An RSA pair, known by its public numbers. -/
structure PrivateKey where
  publicNumbers : Nat
  deriving DecidableEq, Repr

/-- A request for a certificate, as far as anything reads it. -/
structure Csr where
  publicNumbers : Nat
  serialNumber : String
  deriving DecidableEq, Repr

/-- A certificate file, as far as anything reads it. -/
structure X509 where
  publicNumbers : Nat
  /-- The SERIAL_NUMBER attribute of the subject, where there is one. -/
  subjectSerial : Option String
  notBefore : Nat
  notAfter : Nat
  deriving DecidableEq, Repr

/-- What the certificate field of a record holds. -/
inductive CertificateFile
  | pem (cert : X509)
  /-- A file that cryptography does not read. -/
  | other
  deriving DecidableEq, Repr

structure Ticket where
  token : String
  sign : String
  expiration : Nat
  deriving DecidableEq, Repr

structure Certificate where
  name : String
  companyId : Nat
  holderCuit : String
  environment : Environment
  state : CertificateState := .draft
  privateKey : Option PrivateKey := none
  csrPem : Option Csr := none
  certificate : Option CertificateFile := none
  certDateStart : Option Nat := none
  certDateEnd : Option Nat := none
  tokenCache : List (String × Ticket) := []
  deriving DecidableEq, Repr

/-! ## Companies and journals: `res_company.py`, `account_journal.py` -/

structure Company where
  displayName : String
  /-- `partner_id.vat` -/
  vat : Option String
  certificateId : Option Nat
  deriving DecidableEq, Repr

structure Journal where
  arcaEdiEnabled : Bool
  afipPosNumber : Nat
  deriving DecidableEq, Repr

/-! ## Invoices: `account_move.py` -/

structure Date where
  year : Nat
  month : Nat
  day : Nat
  deriving DecidableEq, Repr

inductive MoveState
  | draft | posted | cancel
  deriving DecidableEq, Repr

/-- `l10n_ar_arca_state` -/
inductive ArcaState
  | notRequired | pending | processing | authorized | rejected | uncertain
  deriving DecidableEq, Repr

structure DocumentType where
  code : Option String
  displayName : String
  letter : Option String
  deriving DecidableEq, Repr

/-- `l10n_latam_document_number`, as l10n_ar splits it. -/
structure DocumentNumber where
  pointOfSale : Nat
  invoiceNumber : Nat
  deriving DecidableEq, Repr

structure IdentificationType where
  afipCode : Option String
  displayName : String
  deriving DecidableEq, Repr

structure Responsibility where
  code : Option String
  name : String
  deriving DecidableEq, Repr

/-- The commercial partner of the invoice. -/
structure Partner where
  displayName : String
  vat : Option String
  identificationType : Option IdentificationType
  responsibility : Option Responsibility
  deriving DecidableEq, Repr

structure Currency where
  id : Nat
  name : String
  afipCode : Option String
  deriving DecidableEq, Repr

/-- One line of l10n_ar's `_get_vat`. -/
structure VatLine where
  id : String
  baseImp : ℚ
  importe : ℚ
  deriving DecidableEq

/-- What l10n_ar's `_l10n_ar_get_amounts` and `_get_vat` say of the invoice lines. -/
structure InvoiceLines where
  vatTaxableAmount : ℚ
  vatAmount : ℚ
  vatExemptBaseAmount : ℚ
  vatUntaxedBaseAmount : ℚ
  notVatTaxesAmount : ℚ
  vatLines : List VatLine
  amountTotal : ℚ
  deriving DecidableEq

/-- What a user fills in on a draft. -/
structure MoveForm where
  journalId : Nat
  /-- Odoo takes it from the journal. -/
  companyId : Nat
  countryCode : String
  isSaleDocument : Bool
  useDocuments : Bool
  documentType : Option DocumentType
  documentNumber : Option DocumentNumber
  partner : Partner
  currency : Currency
  companyCurrencyId : Nat
  invoiceCurrencyRate : ℚ
  invoiceDate : Option Date
  invoiceDateDue : Option Date
  serviceStart : Option Date
  serviceEnd : Option Date
  /-- `int(l10n_ar_afip_concept)` -/
  afipConcept : Option Nat
  reversedEntryId : Option Nat
  debitOriginId : Option Nat
  lines : InvoiceLines
  deriving DecidableEq

/-- The `l10n_ar_arca_` fields that the module writes. -/
structure ArcaStatus where
  arcaState : ArcaState := .notRequired
  cae : Option String := none
  caeDueDate : Option Date := none
  observations : Option String := none
  errorCode : Option String := none
  errorMessage : Option String := none
  deriving DecidableEq, Repr

/-- `account.move`: what a user fills in, and what ARCA has to say. -/
structure Move extends MoveForm, ArcaStatus where
  displayName : String
  state : MoveState
  deriving DecidableEq

/-! ## Requests and attempts: `l10n_ar_arca_attempt.py` -/

structure FeCabReq where
  cantReg : Nat
  ptoVta : Nat
  cbteTipo : Nat
  deriving DecidableEq, Repr

structure Amounts where
  impTotConc : ℚ
  impNeto : ℚ
  impOpEx : ℚ
  impIva : ℚ
  impTrib : ℚ
  impTotal : ℚ
  deriving DecidableEq

structure AlicIva where
  id : Nat
  baseImp : ℚ
  importe : ℚ
  deriving DecidableEq

structure ServiceDates where
  fchServDesde : String
  fchServHasta : String
  fchVtoPago : String
  deriving DecidableEq, Repr

structure CbteAsoc where
  tipo : Int
  ptoVta : Nat
  nro : Nat
  cbteFch : Option String
  deriving DecidableEq, Repr

/-- `FECAEDetRequest`. An empty group is one that the request leaves out. -/
structure FeCaeDetRequest where
  concepto : Nat
  docTipo : Int
  docNro : Int
  cbteDesde : Nat
  cbteHasta : Nat
  cbteFch : String
  amounts : Amounts
  monId : String
  monCotiz : ℚ
  condicionIvaReceptorId : Int
  serviceDates : Option ServiceDates
  iva : List AlicIva
  cbtesAsoc : List CbteAsoc
  deriving DecidableEq

inductive AttemptState
  | sent | authorized | rejected | uncertain | aborted
  deriving DecidableEq, Repr

/-- What an attempt records when it is created, and never changes afterwards. -/
structure Evidence where
  moveId : Option Nat
  companyId : Nat
  certificateId : Option Nat
  environment : Environment
  issuerCuit : String
  posNumber : Nat
  documentTypeCode : Nat
  documentNumber : Nat
  sentAt : Nat
  requestPayload : FeCaeDetRequest
  deriving DecidableEq

/-- `l10n_ar.arca.attempt`: what was asked, and what became of it. -/
structure Attempt extends Evidence where
  state : AttemptState := .sent
  resolvedAt : Option Nat := none
  durationMs : Nat := 0
  cae : Option String := none
  caeDueDate : Option Date := none
  errorCode : Option String := none
  errorMessage : Option String := none
  responsePayload : Option String := none
  deriving DecidableEq

/-! ## The database -/

/-- The rows of the database. -/
inductive Key
  | move (id : Nat)
  | attempt (id : Nat)
  | company (id : Nat)
  | certificate (id : Nat)
  | journal (id : Nat)
  deriving DecidableEq, Repr

/-- The row that a key names. Attempts are the only rows that the module creates. -/
@[reducible] def Row : Key → Type
  | .move _ => Move
  | .attempt _ => Option Attempt
  | .company _ => Company
  | .certificate _ => Certificate
  | .journal _ => Journal

abbrev View := (k : Key) → Row k
abbrev Db := Snapshot.Store Key Row
abbrev DbTx := Snapshot.Tx Key Row

end ArcaEdi
