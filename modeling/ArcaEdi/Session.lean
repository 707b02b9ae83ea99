import ArcaEdi.AccountMove

/-!
# What users do in their own sessions

Posting, reset to draft, edits, configuration and the certificate actions. Each
works on the session's transaction and asks ARCA nothing.
-/

namespace ArcaEdi

/-- What a user, a form or another cron may do in one session. -/
inductive UserOp
  /-- `_post`, with the number that Odoo assigns to an invoice that has none. -/
  | posting (m : Nat) (number : Option DocumentNumber)
  | resetToDraft (m : Nat)
  | edit (m : Nat) (form : MoveForm)
  | writeCompany (c : Nat) (company : Company)
  | writeJournal (j : Nat) (journal : Journal)
  | generateKeyAndCsr (k : Nat) (canWrite : Bool) (key : PrivateKey)
  | processCertificate (k : Nat) (file : Option X509)
  | revoke (k : Nat)
  /-- The expiry cron, with the records that it looks at. -/
  | checkExpiration (ks : List Nat)

/-! ## Invoices -/

/-- `_post`: an invoice for ARCA waits for its CAE. -/
def post (t : DbTx) (m : Nat) (number : Option DocumentNumber) : Except Exn DbTx :=
  let move : Move := t.view (.move m)
  if move.state ≠ .draft then throw (.userError "The entry must be in draft.")
  else
    let posted := t.write (.move m)
      { move with
        state := .posted
        documentNumber := move.documentNumber.orElse fun _ => number }
    if isEdi posted.view m && move.arcaState == .notRequired then
      return writeArca posted m fun st => { st with arcaState := .pending }
    else return posted

/-- `button_draft`. An authorized or uncertain invoice is refused, one in processing is not. -/
def buttonDraft (t : DbTx) (m : Nat) : Except Exn DbTx :=
  let move : Move := t.view (.move m)
  if move.arcaState = .authorized then
    throw (.userError
      (s!"Invoice {move.displayName} was authorized by ARCA and cannot be set back to draft. Issue a "
        ++ "credit note instead."))
  else if move.arcaState = .uncertain then
    throw (.userError
      (s!"Invoice {move.displayName} has an unresolved ARCA request. Reconcile it before changing "
        ++ "its state."))
  else if move.state = .draft then
    throw (.userError "Only posted/cancelled journal entries can be reset to draft.")
  else return t.write (.move m) { move with state := .draft }

/-- The form of an invoice is open to edits only while it is a draft. -/
def editMove (t : DbTx) (m : Nat) (form : MoveForm) : Except Exn DbTx :=
  let move : Move := t.view (.move m)
  if move.state ≠ .draft then throw (.userError "Only a draft can be edited.")
  else return t.write (.move m) { move with toMoveForm := form }

/-! ## Configuration -/

/-- `_check_l10n_ar_arca_certificate_company` -/
def checkCertificateCompany (v : View) (c : Nat) (company : Company) : Except Exn Unit :=
  match company.certificateId with
  | none => return ()
  | some k =>
    let certificate : Certificate := v (.certificate k)
    if certificate.companyId = c then return ()
    else
      let owner : Company := v (.company certificate.companyId)
      throw (.userError
        (s!"Certificate '{certificate.name}' belongs to company '{owner.displayName}' and cannot be "
          ++ s!"used by '{company.displayName}'."))

def writeCertificate (t : DbTx) (k : Nat) (f : Certificate → Except Exn Certificate) :
    Except Exn DbTx := do
  let c ← f (t.view (.certificate k))
  return t.write (.certificate k) c

/-! ## One operation -/

def UserOp.run (now : Nat) (t : DbTx) : UserOp → Except Exn DbTx
  | .posting m number => post t m number
  | .resetToDraft m => buttonDraft t m
  | .edit m form => editMove t m form
  | .writeCompany c company => do
    checkCertificateCompany t.view c company
    return t.write (.company c) company
  | .writeJournal j journal => return t.write (.journal j) journal
  | .generateKeyAndCsr k canWrite key =>
    writeCertificate t k (Certificate.actionGenerateKeyAndCsr canWrite key)
  | .processCertificate k file =>
    writeCertificate t k (Certificate.actionProcessCertificate now file)
  | .revoke k => writeCertificate t k fun c => return c.actionRevoke
  | .checkExpiration ks =>
    ks.foldlM (fun t k => writeCertificate t k fun c => return c.cronCheckExpiration now) t

end ArcaEdi
