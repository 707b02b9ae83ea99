import ArcaEdi.Wsfe
import ArcaEdi.Certificate
import ArcaEdi.Payload

/-!
# Attempts and their reconciliation

The methods of `l10n_ar_arca_attempt.py`. A method that writes takes the
transaction it runs in and returns it with the write.
-/

namespace ArcaEdi

/-- STALE_ATTEMPT_MINUTES, in seconds. -/
def staleAttemptSeconds : Nat := 5 * 60

/-- `_is_open`: the outcome is not known. -/
def AttemptState.isOpen : AttemptState → Bool
  | .sent | .uncertain => true
  | _ => false

/-- The attempt has produced a voucher, or may have. -/
def AttemptState.isLive (s : AttemptState) : Bool := s.isOpen || s == .authorized

namespace Attempt

/-! ## Outcomes -/

def markAuthorized (now : Nat) (cae : Option String) (caeDueDate : Option Date)
    (responsePayload : Option String) (durationMs : Nat) (a : Attempt) : Attempt :=
  { a with
    state := .authorized
    cae := cae
    caeDueDate := caeDueDate
    responsePayload := responsePayload
    durationMs := durationMs
    resolvedAt := some now }

/-- `_mark_rejected`: ARCA answered and refused. -/
def markRejected (now : Nat) (errorCode : Option String) (errorMessage : String) (a : Attempt) :
    Attempt :=
  { a with
    state := .rejected
    errorCode := errorCode
    errorMessage := some errorMessage
    responsePayload := none
    durationMs := 0
    resolvedAt := some now }

/-- `_mark_uncertain`. The attempt stays open, so it has no time of resolution. -/
def markUncertain (errorMessage : String) (a : Attempt) : Attempt :=
  { a with state := .uncertain, errorMessage := some errorMessage, durationMs := 0 }

/-- `_mark_aborted`: as far as the module can tell, no voucher exists. -/
def markAborted (now : Nat) (errorMessage : String) (a : Attempt) : Attempt :=
  { a with
    state := .aborted
    errorMessage := some errorMessage
    durationMs := 0
    resolvedAt := some now }

end Attempt

def writeAttempt (t : DbTx) (i : Nat) (f : Attempt → Attempt) : DbTx :=
  t.write (.attempt i) ((t.view (.attempt i)).map f)

def writeArca (t : DbTx) (m : Nat) (f : ArcaStatus → ArcaStatus) : DbTx :=
  t.write (.move m) { t.view (.move m) with toArcaStatus := f (t.view (.move m)).toArcaStatus }

/-! ## Searches -/

def attemptIds (nextAttempt : Nat) : List Nat := List.range nextAttempt

/-- `_find_open_for_move`, newest first. -/
def findOpenForMove (v : View) (nextAttempt move : Nat) : List Nat :=
  ((attemptIds nextAttempt).filter fun i =>
    (v (.attempt i)).any fun a => a.moveId == some move && a.state.isOpen).reverse

/-- The domain of `_cron_reconcile_open_attempts`. -/
def Attempt.isStale (now : Nat) (a : Attempt) : Bool :=
  a.state.isOpen && (a.state == .uncertain || a.sentAt + staleAttemptSeconds < now)

/-- The search of `_cron_reconcile_open_attempts`, in the order of the ids. -/
def cronSearch (now : Nat) (v : View) (nextAttempt limit : Nat) : List Nat :=
  ((attemptIds nextAttempt).filter fun i => (v (.attempt i)).any (·.isStale now)).take limit

/-! ## Reconciliation -/

/-- `_l10n_ar_arca_apply_reconciliation`, when ARCA holds the voucher. -/
def applyAuthorized (t : DbTx) (m : Nat) (cae : Option String) (caeDueDate : Option Date) : DbTx :=
  writeArca t m fun st =>
    { st with
      arcaState := .authorized
      cae := cae
      caeDueDate := caeDueDate
      errorMessage := none
      errorCode := none }

/-- `_l10n_ar_arca_apply_reconciliation`, when ARCA does not. -/
def applyNotFound (t : DbTx) (m : Nat) : DbTx :=
  writeArca t m fun st =>
    { st with
      arcaState := .pending
      errorMessage :=
        some "ARCA has no record of the previous request; the invoice can be authorized again." }

/-- The certificate that `_reconcile` asks with. None where it returns without asking. -/
def reconcileCertificate (v : View) (i : Nat) : Option (Attempt × Nat) :=
  (v (.attempt i)).bind fun a => if a.state.isOpen then a.certificateId.map (a, ·) else none

/-- `_reconcile`, from what `fe_comp_consultar` returned on. -/
def reconcileFound (now : Nat) (t : DbTx) (i : Nat) (moveId : Option Nat) :
    Option Found → Except Exn DbTx
  | none =>
    let closed := writeAttempt t i (Attempt.markAborted now
      "ARCA reports no voucher for this number; the request was not registered.")
    match moveId with
    | some m => .ok (applyNotFound closed m)
    | none => .ok closed
  | some found => do
    let caeDueDate ← dateField found.caeDueDate
    let closed := writeAttempt t i
      (Attempt.markAuthorized now found.cae caeDueDate (some found.raw) 0)
    match moveId with
    | some m => return applyAuthorized closed m found.cae caeDueDate
    | none => return closed

end ArcaEdi
