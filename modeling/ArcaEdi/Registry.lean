import Mathlib.Data.Fintype.Basic
import ArcaEdi.Lib.Runs
import ArcaEdi.AccountMove
import ArcaEdi.Actions
import ArcaEdi.Wsaa

/-!
# Certificates, their companies and their tickets

The certificate records, the certificate that each company selects, and the runs
of `_get_or_refresh_token`, for any number of workers on one database. A session
is the transaction of one request; a run has a work transaction of its own.
-/

namespace ArcaEdi.Registry

open Snapshot

/-! ## The database -/

inductive Key
  | company (id : Nat)
  | certificate (id : Nat)
  deriving DecidableEq, Repr

/-- A certificate row is none until the record is created. -/
@[reducible] def Row : Key → Type
  | .company _ => Company
  | .certificate _ => Option Certificate

abbrev View := (k : Key) → Row k
abbrev Db := Snapshot.Store Key Row
abbrev DbTx := Snapshot.Tx Key Row

def browse (v : View) (k : Nat) : Except Exn Certificate :=
  match v (.certificate k) with
  | some c => .ok c
  | none => .error (.userError "Record does not exist or has been deleted.")

/-! ## Forms -/

/-- What the view of a certificate leaves open only while it is a draft. -/
structure CertificateForm where
  name : String
  companyId : Nat
  holderCuit : String
  environment : Environment
  deriving DecidableEq, Repr

def CertificateForm.record (form : CertificateForm) (file : Option CertificateFile) : Certificate where
  name := form.name
  companyId := form.companyId
  holderCuit := form.holderCuit
  environment := form.environment
  certificate := file

/-- The record as a save of its form leaves it. -/
def saved (c : Certificate) (form : CertificateForm) (file : Option CertificateFile) : Certificate :=
  if c.state = .draft then
    { c with
      name := form.name
      companyId := form.companyId
      holderCuit := form.holderCuit
      environment := form.environment
      certificate := file }
  else { c with certificate := file }

/-- `copy`, with the fields that are declared `copy=False` at their defaults. -/
def copied (c : Certificate) : Certificate :=
  { c with state := .draft, privateKey := none, certificate := none, tokenCache := [] }

/-! ## Constraints -/

def checkHolderCuit (holderCuit : String) : Except Exn Unit := do
  if !(← isValidCuit holderCuit) then
    throw (.userError
      (s!"'{holderCuit}' is not a valid CUIT: it must have 11 digits and a correct verification "
        ++ "digit."))

/-- `_check_l10n_ar_arca_certificate_company`. It fires on a write of the company's field only. -/
def checkCertificateCompany (v : View) (c : Nat) : Except Exn Unit := do
  let company : Company := v (.company c)
  match company.certificateId with
  | none => return ()
  | some k =>
    let certificate ← browse v k
    if certificate.companyId ≠ c then
      let owner : Company := v (.company certificate.companyId)
      throw (.userError
        (s!"Certificate '{certificate.name}' belongs to company '{owner.displayName}' and cannot be "
          ++ s!"used by '{company.displayName}'."))

/-! ## Operations -/

def createCertificate (t : DbTx) (id : Nat) (form : CertificateForm) (file : Option CertificateFile) :
    Except Exn DbTx := do
  checkHolderCuit form.holderCuit
  return t.write (.certificate id) (some (form.record file))

def chooseCertificate (t : DbTx) (c : Nat) (selection : Option Nat) : Except Exn DbTx := do
  let company : Company := t.view (.company c)
  let chosen := t.write (.company c) { company with certificateId := selection }
  checkCertificateCompany chosen.view c
  return chosen

/-- `action_create` of the wizard. -/
def actionCreate (t : DbTx) (id : Nat) (form : CertificateForm) : Except Exn DbTx := do
  let _ ← (t.view (.company form.companyId) : Company).issuerCuit
  if form.holderCuit = "" then
    throw (.userError "Enter the CUIT of whoever will create the certificate in ARCA.")
  if !(← isValidCuit form.holderCuit) then
    throw (.userError s!"'{form.holderCuit}' is not a valid CUIT.")
  let created ← createCertificate t id form none
  chooseCertificate created form.companyId (some id)

/-- `write` of the form. A holder's CUIT is checked on a draft alone. -/
def save (t : DbTx) (k : Nat) (form : CertificateForm) (file : Option CertificateFile) :
    Except Exn DbTx := do
  let c ← browse t.view k
  if c.state = .draft then checkHolderCuit form.holderCuit
  return t.write (.certificate k) (some (saved c form file))

def duplicate (t : DbTx) (id k : Nat) : Except Exn DbTx := do
  let c ← browse t.view k
  checkHolderCuit c.holderCuit
  return t.write (.certificate id) (some (copied c))

def onCertificate (t : DbTx) (k : Nat) (f : Certificate → Except Exn Certificate) :
    Except Exn DbTx := do
  let c ← browse t.view k
  let c' ← f c
  return t.write (.certificate k) (some c')

/-- The records that the search of the expiry cron finds. -/
def expiredCertificates (now fresh : Nat) (v : View) : List Nat :=
  (List.range fresh).filter fun k =>
    (v (.certificate k)).any fun c => c.state == .active && c.certDateEnd.any (· < now)

def checkExpiration (now fresh : Nat) (t : DbTx) : Except Exn DbTx :=
  (expiredCertificates now fresh t.view).foldlM
    (fun t k => onCertificate t k fun c => return c.cronCheckExpiration now) t

/-- What a session may do to certificates and companies. -/
inductive Op
  | create (form : CertificateForm) (file : Option CertificateFile)
  | wizard (form : CertificateForm)
  | choose (c : Nat) (selection : Option Nat)
  | save (k : Nat) (form : CertificateForm) (file : Option CertificateFile)
  | duplicate (k : Nat)
  | generateKeyAndCsr (k : Nat) (canWrite : Bool) (key : PrivateKey)
  | processCertificate (k : Nat) (file : Option X509)
  | revoke (k : Nat)
  | checkExpiration
  deriving DecidableEq, Repr

/-- One operation, with the id that the next new record gets. -/
def Op.run (now fresh : Nat) (t : DbTx) : Op → Except Exn DbTx
  | .create form file => createCertificate t fresh form file
  | .wizard form => actionCreate t fresh form
  | .choose c selection => chooseCertificate t c selection
  | .save k form file => Registry.save t k form file
  | .duplicate k => Registry.duplicate t fresh k
  | .generateKeyAndCsr k canWrite key =>
    onCertificate t k (Certificate.actionGenerateKeyAndCsr canWrite key)
  | .processCertificate k file => onCertificate t k (Certificate.actionProcessCertificate now file)
  | .revoke k => onCertificate t k fun c => return c.actionRevoke
  | .checkExpiration => Registry.checkExpiration now fresh t

/-- How many ids it draws. A rollback does not give them back. -/
def Op.draws : Op → Nat
  | .create _ _ | .wizard _ | .duplicate _ => 1
  | _ => 0

/-- It revokes the certificate or replaces it. -/
def Op.ends (k : Nat) : Op → Bool
  | .processCertificate j _ | .revoke j => j == k
  | _ => false

/-! ## Workers -/

/-- Where a run of `_get_or_refresh_token` stands after it took its lock. -/
inductive TokenStage
  /-- The work transaction has no snapshot yet. -/
  | locked
  /-- It found no ticket, and is about to call `loginCms`. -/
  | asking (tx : DbTx)
  /-- It wrote the ticket that ARCA granted, and has not committed it. -/
  | granted (tx : DbTx) (ticket : Ticket)
  /-- The checkpoint is done. -/
  | kept (ticket : Ticket)

inductive Job
  | idle
  | token (k : Nat) (service : String) (stage : TokenStage)

structure Session where
  tx : DbTx
  /-- What it did so far. -/
  ops : List Op

/-- A session, and the run that works for it. -/
structure Worker where
  session : Option Session := none
  job : Job := .idle
  /-- The outcome of its last run. -/
  got : Option (Except Exn Ticket) := none

/-- The committed rows, and everybody at work on them. -/
structure Sys (W : Type) where
  db : Db
  /-- The sequence of certificate ids. -/
  nextId : Nat
  clock : Nat
  /-- The version that each certificate row had when it was last revoked or replaced. -/
  turnover : Nat → Nat
  locks : Nat → Option W
  worker : W → Worker

/-! ## `_get_or_refresh_token` -/

/-- What a run reads in its caller's transaction. -/
def readBefore (now : Nat) (v : View) (k : Nat) (service : String) : Except Exn (Option Ticket) := do
  beforeLock now (← browse v k) service

/-- What it reads once more under the lock of the ticket. -/
def readUnder (now : Nat) (v : View) (k : Nat) (service : String) (signing : Option String) :
    Except Exn (Option Ticket) := do
  underLock now (← browse v k) service signing

/-- From the answer of `loginCms` to the ticket in the cache. -/
def authenticate (now : Nat) (tx : DbTx) (k : Nat) (service : String) (reply : LoginReply) :
    Except Exn (DbTx × Ticket) := do
  let ticket ← loginCms now reply
  let stored ← onCertificate tx k fun c => return c.storeToken service ticket
  return (stored, ticket)

/-- An ArcaError reaches the caller as an outcome. Any other exception rolls its session back. -/
def sessionAfter (session : Option Session) : Except Exn Ticket → Option Session
  | .ok _ | .error (.arca _) => session
  | .error _ => none

namespace Sys

variable {W : Type} [DecidableEq W]

def setWorker (s : Sys W) (w : W) (v : Worker) : Sys W :=
  { s with worker := Function.update s.worker w v }

/-- The connection that holds the worker's lock is closed. -/
def release (s : Sys W) (w : W) : Sys W :=
  { s with locks := fun key => if s.locks key = some w then none else s.locks key }

/-- The run is over. -/
def finish (s : Sys W) (w : W) (outcome : Except Exn Ticket) : Sys W :=
  (s.release w).setWorker w ⟨sessionAfter (s.worker w).session outcome, .idle, some outcome⟩

/-! ### Sessions -/

def start (s : Sys W) (w : W) : Option (Sys W) :=
  match s.worker w with
  | ⟨none, .idle, got⟩ => some (s.setWorker w ⟨some ⟨Tx.start s.db, []⟩, .idle, got⟩)
  | _ => none

/-- An exception rolls the session back. -/
def user (s : Sys W) (w : W) (op : Op) : Option (Sys W) :=
  match s.worker w with
  | ⟨some se, .idle, got⟩ =>
    let drawn := { s with nextId := s.nextId + op.draws }
    match op.run s.clock s.nextId se.tx with
    | .ok t => some (drawn.setWorker w ⟨some ⟨t, op :: se.ops⟩, .idle, got⟩)
    | .error _ => some (drawn.setWorker w ⟨none, .idle, got⟩)
  | _ => none

def commit (s : Sys W) (w : W) : Option (Sys W) :=
  match s.worker w with
  | ⟨some se, .idle, got⟩ =>
    match se.tx.commit s.db with
    | some db =>
      some { s.setWorker w ⟨none, .idle, got⟩ with
        db := db
        turnover := fun k =>
          if se.ops.any (Op.ends k) then db.ver (.certificate k) else s.turnover k }
    | none => some (s.setWorker w ⟨none, .idle, got⟩)
  | _ => none

def rollback (s : Sys W) (w : W) : Option (Sys W) :=
  match s.worker w with
  | ⟨some _, .idle, got⟩ => some (s.setWorker w ⟨none, .idle, got⟩)
  | _ => none

/-! ### Tickets -/

def ask (P : Platform) (s : Sys W) (w : W) (k : Nat) (service : String) : Option (Sys W) :=
  match s.worker w with
  | ⟨some se, .idle, got⟩ =>
    match readBefore s.clock se.tx.view k service with
    | .error e => some (s.finish w (.error e))
    | .ok (some ticket) => some (s.finish w (.ok ticket))
    | .ok none =>
      let key := P.tokenLockKey k service
      if s.locks key = none then
        some { s.setWorker w ⟨some se, .token k service .locked, got⟩ with
          locks := Function.update s.locks key (some w) }
      else some (s.finish w tokenBusy)
  | _ => none

/-- The first query under the lock takes the snapshot. -/
def enter (s : Sys W) (w : W) (signing : Option String) : Option (Sys W) :=
  match s.worker w with
  | ⟨session, .token k service .locked, got⟩ =>
    let tx : DbTx := Tx.start s.db
    match readUnder s.clock tx.view k service signing with
    | .error e => some (s.finish w (.error e))
    | .ok (some ticket) => some (s.finish w (.ok ticket))
    | .ok none => some (s.setWorker w ⟨session, .token k service (.asking tx), got⟩)
  | _ => none

def login (s : Sys W) (w : W) (reply : LoginReply) : Option (Sys W) :=
  match s.worker w with
  | ⟨session, .token k service (.asking tx), got⟩ =>
    match authenticate s.clock tx k service reply with
    | .ok (tx', ticket) =>
      some (s.setWorker w ⟨session, .token k service (.granted tx' ticket), got⟩)
    | .error e => some (s.finish w (.error e))
  | _ => none

/-- The checkpoint. -/
def keep (s : Sys W) (w : W) : Option (Sys W) :=
  match s.worker w with
  | ⟨session, .token k service (.granted tx ticket), got⟩ =>
    match tx.commit s.db with
    | some db =>
      some { s.setWorker w ⟨session, .token k service (.kept ticket), got⟩ with db := db }
    | none =>
      some (s.finish w
        (.error (.library "could not serialize access due to concurrent update")))
  | _ => none

/-- The work transaction ends, and then the lock. -/
def leave (s : Sys W) (w : W) : Option (Sys W) :=
  match s.worker w with
  | ⟨_, .token _ _ (.kept ticket), _⟩ => some (s.finish w (.ok ticket))
  | _ => none

/-- Any other exception in the middle of a run. -/
def abort (s : Sys W) (w : W) (text : String) : Option (Sys W) :=
  match s.worker w with
  | ⟨_, .token _ _ _, _⟩ => some (s.finish w (.error (.library text)))
  | _ => none

/-- The process dies. PostgreSQL rolls back and drops its locks. -/
def kill (s : Sys W) (w : W) : Sys W := (s.release w).setWorker w {}

end Sys

/-! ## Steps -/

inductive Act (W : Type)
  | tick (seconds : Nat)
  | start (w : W)
  | user (w : W) (op : Op)
  | commit (w : W)
  | rollback (w : W)
  | ask (w : W) (k : Nat) (service : String)
  | enter (w : W) (signing : Option String)
  | login (w : W) (reply : LoginReply)
  | keep (w : W)
  | leave (w : W)
  | abort (w : W) (text : String)
  | kill (w : W)

variable {W : Type} [DecidableEq W]

def step (P : Platform) (s : Sys W) : Act W → Option (Sys W)
  | .tick seconds => some { s with clock := s.clock + seconds }
  | .start w => s.start w
  | .user w op => s.user w op
  | .commit w => s.commit w
  | .rollback w => s.rollback w
  | .ask w k service => s.ask P w k service
  | .enter w signing => s.enter w signing
  | .login w reply => s.login w reply
  | .keep w => s.keep w
  | .leave w => s.leave w
  | .abort w text => s.abort w text
  | .kill w => some (s.kill w)

/-- No certificate exists yet. -/
structure Initial (s : Sys W) : Prop where
  certificates : ∀ k, s.db.row (.certificate k) = none
  selections : ∀ c, (s.db.row (.company c) : Company).certificateId = none
  turnover : ∀ k, s.turnover k = 0
  locks : ∀ key, s.locks key = none
  workers : ∀ w, s.worker w = {}

def system (P : Platform) : Runs.System (Sys W) (Act W) where
  init := Initial
  step := step P

/-! ## A small registry

Two companies without a certificate. The examples of the later modules run it.
-/

namespace Office

def platform : Platform where
  digest text :=
    if text = "l10n_ar_arca_wsaa:0:wsfe" then 16039068441040510357
    else if text = "l10n_ar_arca_wsaa:0:wsfex" then 7446335653924411750
    else 0
  today _ := ⟨2026, 1, 15⟩

def rows : View
  | .company _ => ⟨"Empresa", some "20-12345678-6", none⟩
  | .certificate _ => none

def initial : Sys (Fin 2) where
  db := ⟨rows, fun _ => 0⟩
  nextId := 0
  clock := 0
  turnover _ := 0
  locks _ := none
  worker _ := {}

theorem initial_initial : Initial initial :=
  ⟨fun _ => rfl, fun _ => rfl, fun _ => rfl, fun _ => rfl, fun _ => rfl⟩

theorem reaches (ok : Sys (Fin 2) → Act (Fin 2) → Prop) [∀ s a, Decidable (ok s a)]
    (acts : List (Act (Fin 2))) (p : Sys (Fin 2) → Bool)
    (h : (Runs.run (system platform) ok initial acts).any p = true) :
    ∃ s, Runs.Reachable (system platform) ok s ∧ p s = true :=
  Runs.run_reaches initial_initial h

theorem reaches_then (ok : Sys (Fin 2) → Act (Fin 2) → Prop) [∀ s a, Decidable (ok s a)]
    (acts rest : List (Act (Fin 2))) (p : Sys (Fin 2) → Sys (Fin 2) → Bool)
    (h : ((Runs.run (system platform) ok initial acts).any fun s =>
      (Runs.run (system platform) ok s rest).any (p s)) = true) :
    ∃ s t, Runs.Reachable (system platform) ok s ∧ Runs.Leads (system platform) ok s t ∧
      p s t = true :=
  Runs.run_reaches_then initial_initial h

def form (companyId : Nat) : CertificateForm := ⟨"arca", companyId, "20-12345678-6", .testing⟩

def cert : X509 := ⟨7, none, 0, 1000000⟩

/-- A request that does one operation. -/
def request (w : Fin 2) (op : Op) : List (Act (Fin 2)) := [.start w, .user w op, .commit w]

/-- A user creates certificate 0 and has it activated. -/
def activated (w : Fin 2) : List (Act (Fin 2)) :=
  request w (.wizard (form 0)) ++ request w (.generateKeyAndCsr 0 true ⟨7⟩) ++
    request w (.processCertificate 0 (some cert))

def committed (s : Sys (Fin 2)) (k : Nat) : Option Certificate := s.db.row (.certificate k)

def granted (expiration : Nat) : LoginReply :=
  .response (.document (some "TOKEN") (some "SIGN") (some expiration))

/-- Worker `w` has been granted a ticket that it has not committed. -/
def inHand (s : Sys (Fin 2)) (w : Fin 2) : Bool :=
  match (s.worker w).job with
  | .token _ _ (.granted _ _) => true
  | _ => false

theorem inHand_spec {s : Sys (Fin 2)} {w : Fin 2} (h : inHand s w = true) :
    ∃ k service tx ticket, (s.worker w).job = .token k service (.granted tx ticket) := by
  unfold inHand at h
  split at h
  · exact ⟨_, _, _, _, ‹_›⟩
  · cases h

end Office

end ArcaEdi.Registry
