import ArcaEdi.Lib.Runs
import ArcaEdi.Session
import ArcaEdi.Arca

/-!
# The whole system

Any number of workers, the database they share, the numbering locks, ARCA, and
the clock. One action is one point at which another worker may have run: the
begin or the commit of a transaction, a lock, a call to ARCA and its answer.

A worker has the session that Odoo opened for it, and the job it is in the
middle of. The work transactions of a job are its own, as `fiscal_transaction`
opens them.
-/

namespace ArcaEdi

open Snapshot

/-! ## States -/

/-- Where a run of `_l10n_ar_arca_request_cae` stands. -/
inductive Stage
  /-- It holds the lock. The work transaction has no snapshot yet. -/
  | locked
  /-- It is about to ask for the last number. -/
  | asking (tx : DbTx) (c : Intent)
  /-- It wrote the attempt, and has not committed it. -/
  | prepared (tx : DbTx) (i : Nat) (r : Request)
  /-- The first checkpoint is done. The next transaction has no snapshot yet. -/
  | recorded (i : Nat) (r : Request)
  | sending (tx : DbTx) (i : Nat) (r : Request)
  /-- The request has left. -/
  | awaiting (tx : DbTx) (i : Nat) (r : Request)
  /-- It wrote the outcome, and has not committed it. -/
  | answered (tx : DbTx) (i : Nat) (r : Request)

/-- Where a run of `_reconcile_isolated` stands. -/
inductive IsolatedStage
  | locked
  | working (tx : DbTx)
  | settled (tx : DbTx)

/-- What a worker does beside its session. -/
inductive Job
  | idle
  /-- A reconcile button, with the attempts that it still has to reconcile. -/
  | buttons (queue : List Nat)
  /-- The reconciliation cron, with the attempts that are still to come. -/
  | cron (queue : List Nat)
  | request (m key : Nat) (stage : Stage)
  | isolated (queue : List Nat) (i key : Nat) (stage : IsolatedStage)

/-- A process: its session, and what it works on. -/
structure Worker where
  session : Option DbTx := none
  job : Job := .idle

/-- The committed rows, ARCA, the locks and everybody at work. -/
structure Sys (W : Type) where
  db : Db
  /-- The sequence of attempt ids. A rollback does not give ids back. -/
  nextAttempt : Nat
  clock : Nat
  arca : Arca
  locks : Nat → Option W
  worker : W → Worker

/-- The button is done when nothing is left in its queue. -/
def Job.ofButtons : List Nat → Job
  | [] => .idle
  | queue => .buttons queue

def Job.ofCron : List Nat → Job
  | [] => .idle
  | queue => .cron queue

/-! ## The database -/

/-- The columns of `_authorized_document_uniq`. -/
structure FiscalDocument where
  companyId : Nat
  issuerCuit : String
  posNumber : Nat
  documentTypeCode : Nat
  documentNumber : Nat
  deriving DecidableEq, Repr

/-- The key of the unique index. -/
def Evidence.document (e : Evidence) : FiscalDocument :=
  ⟨e.companyId, e.issuerCuit, e.posNumber, e.documentTypeCode, e.documentNumber⟩

/-- The index entry of an attempt. Only authorized ones have one. -/
def authorizedDocument (v : View) (i : Nat) : Option FiscalDocument :=
  (v (.attempt i)).bind fun a => if a.state = .authorized then some a.document else none

/-- The unique index: no document is authorized by two attempts. -/
def uniqueAuthorized (v : View) (nextAttempt : Nat) : Prop :=
  ∀ i < nextAttempt, ∀ j < nextAttempt, authorizedDocument v i ≠ none →
    authorizedDocument v i = authorizedDocument v j → i = j

instance (v : View) (n : Nat) : Decidable (uniqueAuthorized v n) :=
  inferInstanceAs (Decidable (∀ i < n, ∀ j < n, authorizedDocument v i ≠ none →
    authorizedDocument v i = authorizedDocument v j → i = j))

namespace Sys

variable {W : Type}

/-- A commit under REPEATABLE READ. None where PostgreSQL refuses it. -/
def commitTx (s : Sys W) (t : DbTx) : Option Db :=
  (t.commit s.db).bind fun db =>
    if uniqueAuthorized db.row s.nextAttempt then some db else none

variable [DecidableEq W]

def setWorker (s : Sys W) (w : W) (v : Worker) : Sys W :=
  { s with worker := Function.update s.worker w v }

def lock (s : Sys W) (key : Nat) (w : W) : Sys W :=
  { s with locks := Function.update s.locks key (some w) }

/-- The connection that holds the lock is closed. -/
def release (s : Sys W) (w : W) : Sys W :=
  { s with locks := fun key => if s.locks key = some w then none else s.locks key }

/-- The run is over, and the caller goes on with its session. -/
def endRun (s : Sys W) (w : W) (job : Job) : Sys W :=
  (s.release w).setWorker w ⟨(s.worker w).session, job⟩

/-! ## The caller's session -/

def start (s : Sys W) (w : W) : Option (Sys W) :=
  match s.worker w with
  | ⟨none, .idle⟩ => some (s.setWorker w ⟨some (Tx.start s.db), .idle⟩)
  | _ => none

/-- An exception rolls the session back. -/
def user (s : Sys W) (w : W) (op : UserOp) : Option (Sys W) :=
  match s.worker w with
  | ⟨some t, .idle⟩ =>
    match op.run s.clock t with
    | .ok t' => some (s.setWorker w ⟨some t', .idle⟩)
    | .error _ => some (s.setWorker w ⟨none, .idle⟩)
  | _ => none

/-- A commit that is refused ends the session like a rollback. -/
def commit (s : Sys W) (w : W) : Option (Sys W) :=
  match s.worker w with
  | ⟨some t, .idle⟩ =>
    match s.commitTx t with
    | some db => some { s.setWorker w ⟨none, .idle⟩ with db := db }
    | none => some (s.setWorker w ⟨none, .idle⟩)
  | _ => none

def rollback (s : Sys W) (w : W) : Option (Sys W) :=
  match s.worker w with
  | ⟨some _, .idle⟩ => some (s.setWorker w ⟨none, .idle⟩)
  | _ => none

/-! ## `_l10n_ar_arca_request_cae` -/

/-- The key, computed from what the caller's session sees. -/
def requestKey (P : Platform) (v : View) (m : Nat) : Except Exn Nat := do
  checkReady v m
  return P.lockKey (← moveSequence v m)

/-- It does nothing where it raises, ArcaSequenceBusy included. -/
def request (P : Platform) (s : Sys W) (w : W) (m : Nat) : Option (Sys W) :=
  match s.worker w with
  | ⟨some t, .idle⟩ =>
    match requestKey P t.view m with
    | .ok key =>
      if s.locks key = none then
        some ((s.lock key w).setWorker w ⟨some t, .request m key .locked⟩)
      else none
    | .error _ => none
  | _ => none

/-- The first query of a work transaction. It takes the snapshot. -/
def enter (s : Sys W) (w : W) : Option (Sys W) :=
  match s.worker w with
  | ⟨session, .request m key .locked⟩ =>
    let tx : DbTx := Tx.start s.db
    match authorizeStart s.clock tx.view m with
    | .ok c => some (s.setWorker w ⟨session, .request m key (.asking tx c)⟩)
    | .error _ => some (s.endRun w .idle)
  | ⟨session, .isolated queue i key .locked⟩ =>
    some (s.setWorker w ⟨session, .isolated queue i key (.working (Tx.start s.db))⟩)
  | _ => none

/-- What `_get_auth` and `_get_client` need before a call leaves. -/
def auth (now : Nat) (v : View) (k : Nat) (issuerCuit : String) : Option (Environment × Int) :=
  let c : Certificate := v (.certificate k)
  if c.checkUsable now = .ok () then (PyText.int? issuerCuit).map (c.environment, ·) else none

/-- ARCA tells the last number. The attempt is written, and not committed. -/
def lastAuthorized (P : Platform) (s : Sys W) (w : W) (reply : SoapReply UltimoAutorizado) :
    Option (Sys W) :=
  match s.worker w with
  | ⟨session, .request m key (.asking tx c)⟩ =>
    match auth s.clock tx.view c.certificateId c.seq.issuerCuit with
    | some (env, cuit) =>
      if s.arca.honestLast ⟨env, cuit, c.seq.posNumber, c.seq.documentTypeCode⟩ reply then
        match (feCompUltimoAutorizado c.seq.posNumber reply).bind
            (authorizeCreate P s.clock tx m s.nextAttempt c) with
        | .ok (tx', r) =>
          some { s.setWorker w ⟨session, .request m key (.prepared tx' s.nextAttempt r)⟩ with
            nextAttempt := s.nextAttempt + 1 }
        | .error _ => some (s.endRun w .idle)
      else none
    | none => none
  | _ => none

/-- The checkpoint before the request. -/
def checkpoint (s : Sys W) (w : W) : Option (Sys W) :=
  match s.worker w with
  | ⟨session, .request m key (.prepared tx i r)⟩ =>
    match s.commitTx tx with
    | some db => some { s.setWorker w ⟨session, .request m key (.recorded i r)⟩ with db := db }
    | none => some (s.endRun w .idle)
  | _ => none

/-- The first query after the checkpoint. It takes the second snapshot. -/
def resume (s : Sys W) (w : W) : Option (Sys W) :=
  match s.worker w with
  | ⟨session, .request m key (.recorded i r)⟩ =>
    some (s.setWorker w ⟨session, .request m key (.sending (Tx.start s.db) i r)⟩)
  | _ => none

/-- `fe_cae_solicitar` raises before the envelope leaves. -/
def sendFails (s : Sys W) (w : W) (e : ArcaError) : Option (Sys W) :=
  match s.worker w with
  | ⟨session, .request m key (.sending tx i r)⟩ =>
    if e.kind = .aborted ∨ e.kind = .businessError then
      match authorizeOutcome s.clock 0 tx m i (.error (.arca e)) with
      | .ok tx' => some (s.setWorker w ⟨session, .request m key (.answered tx' i r)⟩)
      | .error _ => some (s.endRun w .idle)
    else none
  | _ => none

/-- The envelope leaves. From here on its outcome may be unknown. -/
def transmit (s : Sys W) (w : W) : Option (Sys W) :=
  match s.worker w with
  | ⟨session, .request m key (.sending tx i r)⟩ =>
    match auth s.clock tx.view r.certificateId r.issuerCuit with
    | some (env, cuit) =>
      some { s.setWorker w ⟨session, .request m key (.awaiting tx i r)⟩ with
        arca := { s.arca with
          sent := s.arca.sent ++ [⟨i, env, cuit, r.header, r.detail, s.clock, .pending⟩] } }
    | none => none
  | _ => none

/-- ARCA answers, or the connection breaks. -/
def answer (s : Sys W) (w : W) (reply : SoapReply (Option CaeResponse)) (durationMs : Nat) :
    Option (Sys W) :=
  match s.worker w with
  | ⟨session, .request m key (.awaiting tx i r)⟩ =>
    if s.arca.honestCae i reply then
      match authorizeOutcome s.clock durationMs tx m i (feCaeSolicitar reply) with
      | .ok tx' => some (s.setWorker w ⟨session, .request m key (.answered tx' i r)⟩)
      | .error _ => some (s.endRun w .idle)
    else none
  | _ => none

/-! ## Reconciliation -/

/-- `action_l10n_ar_arca_reconcile`. It raises where the invoice has no open attempt. -/
def reconcileMove (s : Sys W) (w : W) (m : Nat) : Option (Sys W) :=
  match s.worker w with
  | ⟨some t, .idle⟩ =>
    match findOpenForMove t.view s.nextAttempt m with
    | [] => none
    | queue => some (s.setWorker w ⟨some t, .buttons queue⟩)
  | _ => none

/-- `action_reconcile`, on the attempts that the user selected. -/
def reconcileAttempts (s : Sys W) (w : W) (attempts : List Nat) : Option (Sys W) :=
  match s.worker w with
  | ⟨some t, .idle⟩ => some (s.setWorker w ⟨some t, .ofButtons attempts⟩)
  | _ => none

/-- The reconciliation cron finds its attempts in its own session. -/
def search (s : Sys W) (w : W) (limit : Nat) : Option (Sys W) :=
  match s.worker w with
  | ⟨some t, .idle⟩ =>
    some (s.setWorker w ⟨some t, .ofCron (cronSearch s.clock t.view s.nextAttempt limit)⟩)
  | _ => none

/-- `_reconcile_isolated`, up to the lock. A busy sequence is left for later. -/
def isolate (P : Platform) (s : Sys W) (w : W) : Option (Sys W) :=
  match s.worker w with
  | ⟨some t, .cron (i :: queue)⟩ =>
    match t.view (.attempt i) with
    | some a =>
      let key := P.lockKey a.seq
      if s.locks key = none then
        some ((s.lock key w).setWorker w ⟨some t, .isolated queue i key .locked⟩)
      else some (s.setWorker w ⟨some t, .ofCron queue⟩)
    | none => some (s.setWorker w ⟨some t, .ofCron queue⟩)
  | _ => none

/-- `_reconcile` on one attempt, with what ARCA answers. None where it asks nothing. -/
def reconcile (s : Sys W) (t : DbTx) (i : Nat) (reply : SoapReply (Option ConsultResponse)) :
    Option (Except Exn DbTx) :=
  match reconcileCertificate t.view i with
  | some (a, k) =>
    match auth s.clock t.view k a.issuerCuit with
    | some (env, cuit) =>
      if s.arca.honestConsult ⟨⟨env, cuit, a.posNumber, a.documentTypeCode⟩, a.documentNumber⟩ reply
      then some ((feCompConsultar reply).bind (reconcileFound s.clock t i a.moveId))
      else none
    | none => none
  | none => none

/-- ARCA tells of a voucher, to a button or in the cron's own transaction. -/
def consult (s : Sys W) (w : W) (reply : SoapReply (Option ConsultResponse)) : Option (Sys W) :=
  match s.worker w with
  | ⟨some t, .buttons (i :: queue)⟩ =>
    match s.reconcile t i reply with
    | some (.ok t') => some (s.setWorker w ⟨some t', .ofButtons queue⟩)
    | some (.error _) => some (s.setWorker w ⟨none, .idle⟩)
    | none => none
  | ⟨session, .isolated queue i key (.working t)⟩ =>
    match s.reconcile t i reply with
    | some (.ok t') => some (s.setWorker w ⟨session, .isolated queue i key (.settled t')⟩)
    | some (.error _) => some (s.endRun w (.ofCron queue))
    | none => none
  | _ => none

/-- `_reconcile` returns at once: the attempt is closed, or has no certificate. -/
def skip (s : Sys W) (w : W) : Option (Sys W) :=
  match s.worker w with
  | ⟨some t, .buttons (i :: queue)⟩ =>
    if reconcileCertificate t.view i = none then
      some (s.setWorker w ⟨some t, .ofButtons queue⟩)
    else none
  | ⟨session, .isolated queue i key (.working t)⟩ =>
    if reconcileCertificate t.view i = none then
      some (s.setWorker w ⟨session, .isolated queue i key (.settled t)⟩)
    else none
  | _ => none

/-! ## The end of a run -/

/-- The run commits its outcome and releases its lock. -/
def settle (s : Sys W) (w : W) : Option (Sys W) :=
  match s.worker w with
  | ⟨_, .request _ _ (.answered tx _ _)⟩ =>
    match s.commitTx tx with
    | some db => some { s.endRun w .idle with db := db }
    | none => some (s.endRun w .idle)
  | ⟨_, .isolated queue _ _ (.settled tx)⟩ =>
    match s.commitTx tx with
    | some db => some { s.endRun w (.ofCron queue) with db := db }
    | none => some (s.endRun w (.ofCron queue))
  | _ => none

/-- An exception that the code does not catch in the middle of a job. -/
def abort (s : Sys W) (w : W) : Option (Sys W) :=
  match s.worker w with
  | ⟨_, .idle⟩ => none
  | ⟨_, .buttons _⟩ => some (s.setWorker w ⟨none, .idle⟩)
  | ⟨session, .cron _⟩ => some (s.setWorker w ⟨session, .idle⟩)
  | ⟨_, .request _ _ _⟩ => some (s.endRun w .idle)
  | ⟨_, .isolated queue _ _ _⟩ => some (s.endRun w (.ofCron queue))

/-- The process dies. PostgreSQL rolls back and drops its locks. -/
def kill (s : Sys W) (w : W) : Sys W := (s.release w).setWorker w ⟨none, .idle⟩

/-! ## Access tickets -/

/-- `_get_or_refresh_token` stores a new ticket, on a transaction of its own that
it opens and commits within one call to ARCA. -/
def ticket (P : Platform) (s : Sys W) (k : Nat) (new : Ticket) : Option (Sys W) :=
  let tx : DbTx := Tx.start s.db
  let c : Certificate := tx.view (.certificate k)
  if s.locks (P.tokenLockKey k "wsfe") = none ∧ c.privateKey ≠ none ∧ c.certificate ≠ none then
    (s.commitTx (tx.write (.certificate k) (c.storeToken "wsfe" new))).map fun db =>
      { s with db := db }
  else none

end Sys

/-! ## Steps -/

/-- Who does what next. ARCA acts on its own. -/
inductive Act (W : Type)
  | tick
  | start (w : W)
  | user (w : W) (op : UserOp)
  | commit (w : W)
  | rollback (w : W)
  | request (w : W) (m : Nat)
  | enter (w : W)
  | lastAuthorized (w : W) (reply : SoapReply UltimoAutorizado)
  | checkpoint (w : W)
  | resume (w : W)
  | sendFails (w : W) (e : ArcaError)
  | transmit (w : W)
  | answer (w : W) (reply : SoapReply (Option CaeResponse)) (durationMs : Nat)
  | reconcileMove (w : W) (m : Nat)
  | reconcileAttempts (w : W) (attempts : List Nat)
  | search (w : W) (limit : Nat)
  | isolate (w : W)
  | consult (w : W) (reply : SoapReply (Option ConsultResponse))
  | skip (w : W)
  | settle (w : W)
  | abort (w : W)
  | kill (w : W)
  | ticket (k : Nat) (new : Ticket)
  | record (n : Nat) (cae : String)
  | refuse (n : Nat)
  /-- ARCA authorizes a voucher that somebody else asked for. -/
  | elsewhere (c : Coordinates) (cae : String)

variable {W : Type} [DecidableEq W]

def step (P : Platform) (s : Sys W) : Act W → Option (Sys W)
  | .tick => some { s with clock := s.clock + 1 }
  | .start w => s.start w
  | .user w op => s.user w op
  | .commit w => s.commit w
  | .rollback w => s.rollback w
  | .request w m => s.request P w m
  | .enter w => s.enter w
  | .lastAuthorized w reply => s.lastAuthorized P w reply
  | .checkpoint w => s.checkpoint w
  | .resume w => s.resume w
  | .sendFails w e => s.sendFails w e
  | .transmit w => s.transmit w
  | .answer w reply durationMs => s.answer w reply durationMs
  | .reconcileMove w m => s.reconcileMove w m
  | .reconcileAttempts w attempts => s.reconcileAttempts w attempts
  | .search w limit => s.search w limit
  | .isolate w => s.isolate P w
  | .consult w reply => s.consult w reply
  | .skip w => s.skip w
  | .settle w => s.settle w
  | .abort w => s.abort w
  | .kill w => some (s.kill w)
  | .ticket k new => s.ticket P k new
  | .record n cae => (s.arca.record s.clock n cae).map fun arca => { s with arca := arca }
  | .refuse n => (s.arca.refuse n).map fun arca => { s with arca := arca }
  | .elsewhere c cae => (s.arca.issue c ⟨none, cae⟩).map fun arca => { s with arca := arca }

/-- No request was ever made here. ARCA may hold vouchers from elsewhere. -/
structure Initial (s : Sys W) : Prop where
  moves : ∀ m, (s.db.row (.move m) : Move).toArcaStatus = {}
  attempts : ∀ i, s.db.row (.attempt i) = none
  certificates : ∀ k, (s.db.row (.certificate k) : Certificate).state = .draft
  sent : s.arca.sent = []
  vouchers : ∀ c, ∀ v ∈ s.arca.voucher c, v.origin = none
  locks : ∀ key, s.locks key = none
  workers : ∀ w, s.worker w = {}

def system (P : Platform) : Runs.System (Sys W) (Act W) where
  init := Initial
  step := step P

/-! ## A small office

Two companies that share a CUIT, each with a draft certificate, and three draft
invoices: number 1 of point of sale 1, the same of the other company, and number
1 of point of sale 2. The examples of the later modules run it.
-/

namespace Office

def platform : Platform where
  digest text :=
    if text = "l10n_ar_arca:20123456786:1:6" then 86734745277920854
    else if text = "l10n_ar_arca:20123456786:2:6" then 11568218626870434174
    else 0
  today _ := ⟨2026, 1, 15⟩

def form (posNumber number : Nat) : MoveForm where
  journalId := posNumber
  companyId := 0
  countryCode := "AR"
  isSaleDocument := true
  useDocuments := true
  documentType := some ⟨some "6", "FACTURAS B", some "B"⟩
  documentNumber := some ⟨posNumber, number⟩
  partner := ⟨"Consumidor Final", none, none, some ⟨some "5", "Consumidor Final"⟩⟩
  currency := ⟨1, "ARS", none⟩
  companyCurrencyId := 1
  invoiceCurrencyRate := 1
  invoiceDate := some ⟨2026, 1, 15⟩
  invoiceDateDue := none
  serviceStart := none
  serviceEnd := none
  afipConcept := some 1
  reversedEntryId := none
  debitOriginId := none
  lines := ⟨100, 21, 0, 0, 0, [⟨"5", 100, 21⟩], 121⟩

def invoice (companyId posNumber : Nat) : Move :=
  { toMoveForm := { form posNumber 1 with companyId := companyId }, displayName := "FA-B",
    state := .draft }

def invoices : Nat → Move
  | 1 => invoice 1 1
  | 2 => invoice 0 2
  | _ => invoice 0 1

def rows : View
  | .move m => invoices m
  | .attempt _ => none
  | .company c => ⟨"Empresa", some "20-12345678-6", some c⟩
  | .certificate k =>
    { name := "arca", companyId := k, holderCuit := "20-12345678-6", environment := .testing }
  | .journal j => ⟨true, j⟩

/-- Nothing was posted or sent, and nobody is at work. -/
def initial : Sys (Fin 3) where
  db := ⟨rows, fun _ => 0⟩
  nextAttempt := 0
  clock := 0
  arca := ⟨[], fun _ => none, fun _ => 0⟩
  locks _ := none
  worker _ := {}

theorem initial_initial : Initial initial := by
  refine ⟨?_, fun _ => rfl, fun _ => rfl, rfl, ?_, fun _ => rfl, fun _ => rfl⟩
  · intro m
    simp only [initial, rows, invoices]
    split <;> rfl
  · intro c v hv
    cases hv

/-- Worker 2 activates the certificate of a company and posts one of its invoices. -/
def posted (c m : Nat) : List (Act (Fin 3)) :=
  [.start 2, .user 2 (.generateKeyAndCsr c true ⟨7⟩),
    .user 2 (.processCertificate c (some ⟨7, none, 0, 1000000⟩)), .user 2 (.posting m none), .commit 2]

/-- A run up to its first checkpoint. -/
def recorded (w : Fin 3) (m last : Nat) : List (Act (Fin 3)) :=
  [.start w, .request w m, .enter w, .lastAuthorized w (.response ⟨none, some last⟩), .checkpoint w]

def approval (cae : String) : SoapReply (Option CaeResponse) :=
  .response (some ⟨none, some (some [⟨some "A", some cae, some "20260125", none, "A"⟩])⟩)

def refusal : SoapReply (Option CaeResponse) :=
  .response (some ⟨none, some (some
    [⟨some "R", none, none, some (some [⟨"10016", "El numero no es el proximo a autorizar"⟩]), "R"⟩])⟩)

def timeout : SoapReply (Option CaeResponse) :=
  .exception ⟨.readTimeout, "ReadTimeout(...)", "Read timed out."⟩

def noVoucher : SoapReply (Option ConsultResponse) :=
  .response (some ⟨some (some [⟨"602", "No existen datos"⟩]), none⟩)

def voucherFound (cae : String) : SoapReply (Option ConsultResponse) :=
  .response (some ⟨none, some ⟨some cae, some "20260125", some "A", none, none, none, none, "R"⟩⟩)

/-- Transmission `n` of worker `w` is approved, from the second snapshot on. -/
def approved (w : Fin 3) (n : Nat) (cae : String) : List (Act (Fin 3)) :=
  [.resume w, .transmit w, .record n cae, .answer w (approval cae) 900, .settle w, .commit w]

/-- The answer is lost, from the second snapshot on. -/
def lost (w : Fin 3) : List (Act (Fin 3)) :=
  [.resume w, .transmit w, .answer w timeout 60000, .settle w, .rollback w]

def button (w : Fin 3) (i : Nat) (reply : SoapReply (Option ConsultResponse)) : List (Act (Fin 3)) :=
  [.start w, .reconcileAttempts w [i], .consult w reply, .commit w]

/-- The reconciliation cron, when its search finds one attempt. -/
def cron (w : Fin 3) (reply : SoapReply (Option ConsultResponse)) : List (Act (Fin 3)) :=
  [.start w, .search w 50, .isolate w, .enter w, .consult w reply, .settle w, .commit w]

/-- Worker 2 reopens an invoice, gives it another number and posts it again. -/
def renumbered (m posNumber number : Nat) : List (Act (Fin 3)) :=
  [.start 2, .user 2 (.resetToDraft m), .user 2 (.edit m (form posNumber number)),
    .user 2 (.posting m none), .commit 2]

theorem reaches (ok : Sys (Fin 3) → Act (Fin 3) → Prop) [∀ s a, Decidable (ok s a)]
    (acts : List (Act (Fin 3))) (p : Sys (Fin 3) → Bool)
    (h : (Runs.run (system platform) ok initial acts).any p = true) :
    ∃ s, Runs.Reachable (system platform) ok s ∧ p s = true :=
  Runs.run_reaches initial_initial h

theorem reaches_then (ok : Sys (Fin 3) → Act (Fin 3) → Prop) [∀ s a, Decidable (ok s a)]
    (acts rest : List (Act (Fin 3))) (p : Sys (Fin 3) → Sys (Fin 3) → Bool)
    (h : ((Runs.run (system platform) ok initial acts).any fun s =>
      (Runs.run (system platform) ok s rest).any (p s)) = true) :
    ∃ s t, Runs.Reachable (system platform) ok s ∧ Runs.Leads (system platform) ok s t ∧
      p s t = true :=
  Runs.run_reaches_then initial_initial h

def arcaState (s : Sys (Fin 3)) (m : Nat) : ArcaState := (s.db.row (.move m) : Move).arcaState

def attemptIs (s : Sys (Fin 3)) (i m : Nat) (state : AttemptState) : Bool :=
  (s.db.row (.attempt i)).any fun a => a.moveId == some m && a.state == state

theorem attemptIs_spec {s : Sys (Fin 3)} {i m : Nat} {state : AttemptState}
    (h : attemptIs s i m state = true) :
    ∃ a : Attempt, s.db.row (.attempt i) = some a ∧ a.moveId = some m ∧ a.state = state := by
  obtain ⟨a, ha, hm⟩ := (Option.any_eq_true _ _).mp h
  rw [Bool.and_eq_true, beq_iff_eq, beq_iff_eq] at hm
  exact ⟨a, ha, hm⟩

end Office

end ArcaEdi
