import ArcaEdi.Attempt

/-!
# Invoices

The methods of `account_move.py`: the lock, the request protocol between its SOAP
calls, and the QR code.
-/

namespace ArcaEdi

/-- What the code takes from the machine that runs it. -/
structure Platform where
  /-- `blake2b` with a digest of eight bytes, read as a number. -/
  digest : String → Nat
  /-- `context_today` -/
  today : Nat → Date

/-! ## The numbering lock -/

/-- What ARCA numbers by: each CUIT counts per point of sale and document type. -/
structure Sequence where
  issuerCuit : String
  posNumber : Nat
  documentTypeCode : Nat
  deriving DecidableEq, Repr

def Evidence.seq (e : Evidence) : Sequence := ⟨e.issuerCuit, e.posNumber, e.documentTypeCode⟩

/-- `_l10n_ar_arca_lock_key`: 63 bits of the digest, as PostgreSQL takes a signed key. -/
def Platform.lockKey (P : Platform) (q : Sequence) : Nat :=
  P.digest s!"l10n_ar_arca:{q.issuerCuit}:{q.posNumber}:{q.documentTypeCode}" &&& 0x7FFFFFFFFFFFFFFF

def Platform.tokenLockKey (P : Platform) (certificateId : Nat) (service : String) : Nat :=
  P.digest s!"l10n_ar_arca_wsaa:{certificateId}:{service}" &&& 0x7FFFFFFFFFFFFFFF

/-- The sequence of an invoice, in the order in which `_l10n_ar_arca_sequence_lock_key` reads it. -/
def moveSequence (v : View) (m : Nat) : Except Exn Sequence := do
  let move : Move := v (.move m)
  let (posNumber, _) ← move.documentNumberParts
  let documentTypeCode ← move.documentTypeCode
  let issuerCuit ← (v (.company move.companyId) : Company).issuerCuit
  return ⟨issuerCuit, posNumber, documentTypeCode⟩

/-! ## Readiness -/

def isEdi (v : View) (m : Nat) : Bool :=
  let move : Move := v (.move m)
  move.countryCode == "AR" && move.isSaleDocument && move.useDocuments &&
    (v (.journal move.journalId) : Journal).arcaEdiEnabled

def ArcaState.name : ArcaState → String
  | .notRequired => "not_required"
  | .pending => "pending"
  | .processing => "processing"
  | .authorized => "authorized"
  | .rejected => "rejected"
  | .uncertain => "uncertain"

/-- `_l10n_ar_arca_check_ready`. The open states are refused with a message of their own. -/
def checkReady (v : View) (m : Nat) : Except Exn Unit := do
  let move : Move := v (.move m)
  if move.state ≠ .posted then
    throw (.userError "Only posted invoices can be authorized by ARCA.")
  if !isEdi v m then
    throw (.userError "This invoice is not configured for ARCA electronic invoicing.")
  match move.arcaState with
  | .authorized =>
    let cae := move.cae.getD "False"
    throw (.userError s!"This invoice already has CAE {cae}.")
  | .uncertain =>
    throw (.userError
      ("The fiscal status of this invoice is unknown: a request was sent to ARCA and the answer was "
        ++ "lost. Reconcile it against ARCA first -- sending it again could authorize the same "
        ++ "invoice twice."))
  | .processing =>
    throw (.userError
      ("A request for this invoice is already in flight. If the process that started it died, "
        ++ "reconcile the invoice against ARCA instead of sending a second request."))
  | .pending | .rejected => return ()
  | .notRequired =>
    throw (.userError
      s!"This invoice is not ready to be authorized (status: {move.arcaState.name}).")

/-- `_l10n_ar_arca_get_certificate`: the one that the company chose, where it is usable. -/
def getCertificate (now : Nat) (v : View) (m : Nat) : Except Exn Nat := do
  let move : Move := v (.move m)
  let company : Company := v (.company move.companyId)
  match company.certificateId with
  | none =>
    throw (.userError
      (s!"No ARCA certificate is configured for company '{company.displayName}'. Go to Settings > "
        ++ "Invoicing > ARCA Electronic Invoicing."))
  | some k =>
    (v (.certificate k) : Certificate).checkUsable now
    return k

/-! ## `_l10n_ar_arca_authorize`, up to its checkpoint -/

/-- What the protocol reads before it asks for the last number. -/
structure Intent where
  certificateId : Nat
  seq : Sequence
  number : Nat
  deriving DecidableEq, Repr

/-- `_l10n_ar_arca_authorize`, up to its first call to ARCA. -/
def authorizeStart (now : Nat) (v : View) (m : Nat) : Except Exn Intent := do
  checkReady v m
  let certificateId ← getCertificate now v m
  let move : Move := v (.move m)
  let issuerCuit ← (v (.company move.companyId) : Company).issuerCuit
  let documentTypeCode ← move.documentTypeCode
  let (posNumber, number) ← move.documentNumberParts
  let journal : Journal := v (.journal move.journalId)
  if posNumber ≠ journal.afipPosNumber then
    throw (.userError
      (s!"The invoice number belongs to point of sale {posNumber} but its journal is configured for "
        ++ s!"point of sale {journal.afipPosNumber}."))
  return ⟨certificateId, ⟨issuerCuit, posNumber, documentTypeCode⟩, number⟩

/-- `_l10n_ar_arca_check_sequence`: ARCA takes the next number and no other. -/
def checkSequence (lastAuthorized number posNumber : Nat) : Except Exn Unit :=
  let expected := lastAuthorized + 1
  if number = expected then return ()
  else if number ≤ lastAuthorized then
    throw (.userError
      (s!"ARCA already authorized number {lastAuthorized} for point of sale {posNumber}, but this "
        ++ s!"invoice is numbered {number}. Reconcile the invoices in between before issuing this "
        ++ "one."))
  else
    throw (.userError
      (s!"There is a gap in the numbering: ARCA expects number {expected} for point of sale "
        ++ s!"{posNumber} and this invoice is numbered {number}. Authorize the missing invoices "
        ++ "first."))

/-- The locals that `_l10n_ar_arca_authorize` still holds after its checkpoint. -/
structure Request where
  certificateId : Nat
  issuerCuit : String
  header : FeCabReq
  detail : FeCaeDetRequest
  deriving DecidableEq

def Request.seq (r : Request) : Sequence := ⟨r.issuerCuit, r.header.ptoVta, r.header.cbteTipo⟩

/-- The attempt that is recorded before anything is sent. -/
def newAttempt (now : Nat) (v : View) (m : Nat) (c : Intent) (detail : FeCaeDetRequest) : Attempt where
  moveId := some m
  companyId := (v (.move m) : Move).companyId
  certificateId := some c.certificateId
  environment := (v (.certificate c.certificateId) : Certificate).environment
  issuerCuit := c.seq.issuerCuit
  posNumber := c.seq.posNumber
  documentTypeCode := c.seq.documentTypeCode
  documentNumber := c.number
  sentAt := now
  requestPayload := detail

/-- From the last number on: the checks, the request, the attempt and the state. -/
def authorizeCreate (P : Platform) (now : Nat) (t : DbTx) (m i : Nat) (c : Intent)
    (lastAuthorized : Nat) : Except Exn (DbTx × Request) := do
  checkSequence lastAuthorized c.number c.seq.posNumber
  let (header, detail) ← (t.view (.move m) : Move).prepareRequest (P.today now) t.view
    c.seq.documentTypeCode c.seq.posNumber c.number
  let created := t.write (.attempt i) (some (newAttempt now t.view m c detail))
  return (writeArca created m fun st => { st with arcaState := .processing },
    ⟨c.certificateId, c.seq.issuerCuit, header, detail⟩)

/-! ## `_l10n_ar_arca_authorize`, from the answer on -/

def joinObservations (observations : List Remark) : Option String :=
  let text := formatErrors observations
  if text = "" then none else some text

/-- The writes for each outcome of `fe_cae_solicitar`. An exception that the code
does not catch writes nothing. -/
def authorizeOutcome (now durationMs : Nat) (t : DbTx) (m i : Nat) :
    Except Exn CaeResult → Except Exn DbTx
  | .error (.arca ⟨.uncertain, message, _, _⟩) =>
    .ok (writeArca (writeAttempt t i (Attempt.markUncertain message)) m fun st =>
      { st with arcaState := .uncertain, errorMessage := some message })
  | .error (.arca ⟨.aborted, message, code, _⟩) =>
    .ok (writeArca (writeAttempt t i (Attempt.markAborted now message)) m fun st =>
      { st with arcaState := .rejected, errorCode := code, errorMessage := some message })
  | .error (.arca ⟨.businessError, message, code, _⟩) =>
    .ok (writeArca (writeAttempt t i (Attempt.markRejected now code message)) m fun st =>
      { st with arcaState := .rejected, errorCode := code, errorMessage := some message })
  | .error e => .error e
  | .ok result => do
    let caeDueDate ← dateField result.caeDueDate
    let closed := writeAttempt t i
      (Attempt.markAuthorized now result.cae caeDueDate (some result.raw) durationMs)
    return writeArca closed m fun _ =>
      { arcaState := .authorized
        cae := result.cae
        caeDueDate := caeDueDate
        observations := joinObservations result.observations
        errorCode := none
        errorMessage := none }

/-! ## QR code -/

/-- The JSON document that the URL of the QR encodes. -/
structure QrPayload where
  ver : Nat := 1
  fecha : String
  cuit : Int
  ptoVta : Nat
  tipoCmp : Int
  nroCmp : Nat
  importe : ℚ
  moneda : String
  ctz : ℚ
  tipoDocRec : Int
  nroDocRec : Int
  tipoCodAut : String := "E"
  codAut : Int
  deriving DecidableEq

/-- `strftime("%Y-%m-%d")` -/
def Date.iso (d : Date) : String :=
  toString d.year ++ "-" ++ PyText.zeroPad 2 d.month ++ "-" ++ PyText.zeroPad 2 d.day

/-- `_l10n_ar_arca_qr_payload`. It reads the invoice again, not the request. -/
def qrPayload (today : Date) (v : View) (m : Nat) : Except Exn QrPayload := do
  let move : Move := v (.move m)
  let issuerCuit ← (v (.company move.companyId) : Company).issuerCuit
  let (posNumber, number) ← move.documentNumberParts
  let some docTypeCode := PyText.intField? (move.documentType.bind (·.code)) | throw .valueError
  let (currencyCode, currencyRate) ← move.currencyValues
  let (receptorType, receptorNumber) ← move.customerDocument docTypeCode.toNat
  let some cuit := PyText.int? issuerCuit | throw .valueError
  let some codAut := PyText.intField? move.cae | throw .valueError
  return {
    fecha := (move.invoiceDate.getD today).iso
    cuit := cuit
    ptoVta := posNumber
    tipoCmp := docTypeCode
    nroCmp := number
    importe := floatRound 2 |move.lines.amountTotal|
    moneda := currencyCode
    ctz := currencyRate
    tipoDocRec := receptorType
    nroDocRec := receptorNumber
    codAut := codAut }

/-- `_compute_l10n_ar_arca_qr_code`, up to the encoding. -/
def qrCode (today : Date) (v : View) (m : Nat) : Option QrPayload :=
  let move : Move := v (.move m)
  if move.arcaState ≠ .authorized ∨ move.cae.getD "" = "" then none
  else (qrPayload today v m).toOption

end ArcaEdi
