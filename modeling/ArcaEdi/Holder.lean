import ArcaEdi.Lib.Erasure
import ArcaEdi.System

/-!
# Who holds the certificate

The issuer comes from the company, and the certificate may belong to somebody else. Its
holder, its key and its file have no part in what is invoiced: two systems that differ in
them alone send the same requests and keep the same books. A call is the one of `System`,
with the CUIT of the issuer and without the token and the sign of the ticket.
-/

namespace ArcaEdi

open Snapshot Runs

/-! ## Certificates without their bearer -/

/-- What is left is whether there is a key and a file, until when it is good, and the tickets. -/
def Certificate.anonymous (c : Certificate) : Certificate :=
  { c with
    holderCuit := ""
    privateKey := c.privateKey.map fun _ => ⟨0⟩
    csrPem := none
    certificate := c.certificate.map fun _ => .other
    certDateStart := none }

/-- Certificates lose their bearer, and every other row stays. -/
def anonymousRow : (k : Key) → Row k → Row k
  | .certificate _, c => Certificate.anonymous c
  | .move _, row => row
  | .attempt _, row => row
  | .company _, row => row
  | .journal _, row => row

def anonymousView (v : View) : View := fun k => anonymousRow k (v k)

abbrev anonymousTx (t : DbTx) : DbTx := t.map anonymousRow

def Stage.anonymous : Stage → Stage
  | .locked => .locked
  | .asking tx c => .asking (anonymousTx tx) c
  | .prepared tx i r => .prepared (anonymousTx tx) i r
  | .recorded i r => .recorded i r
  | .sending tx i r => .sending (anonymousTx tx) i r
  | .awaiting tx i r => .awaiting (anonymousTx tx) i r
  | .answered tx i r => .answered (anonymousTx tx) i r

def IsolatedStage.anonymous : IsolatedStage → IsolatedStage
  | .locked => .locked
  | .working tx => .working (anonymousTx tx)
  | .settled tx => .settled (anonymousTx tx)

def Job.anonymous : Job → Job
  | .idle => .idle
  | .buttons queue => .buttons queue
  | .cron queue => .cron queue
  | .request m key stage => .request m key stage.anonymous
  | .isolated queue i key stage => .isolated queue i key stage.anonymous

def Worker.anonymous (w : Worker) : Worker := ⟨w.session.map anonymousTx, w.job.anonymous⟩

variable {W : Type}

/-- The system, as it would be if nobody could tell whose certificates they are. -/
def Sys.anonymous (s : Sys W) : Sys W :=
  { s with db := s.db.map anonymousRow, worker := fun w => (s.worker w).anonymous }

/-! ### Erasing twice -/

theorem Certificate.anonymous_idem (c : Certificate) : c.anonymous.anonymous = c.anonymous := by
  simp [Certificate.anonymous, Function.comp_def]

theorem anonymousRow_idem (k : Key) (row : Row k) :
    anonymousRow k (anonymousRow k row) = anonymousRow k row := by
  cases k with
  | certificate k => exact Certificate.anonymous_idem row
  | _ => rfl

theorem anonymousTx_idem (t : DbTx) : anonymousTx (anonymousTx t) = anonymousTx t :=
  map_tx_idem anonymousRow_idem t

theorem Job.anonymous_idem (job : Job) : job.anonymous.anonymous = job.anonymous := by
  cases job with
  | request m key stage => cases stage <;> simp [Job.anonymous, Stage.anonymous, anonymousTx_idem]
  | isolated queue i key stage =>
    cases stage <;> simp [Job.anonymous, IsolatedStage.anonymous, anonymousTx_idem]
  | _ => rfl

theorem Worker.anonymous_idem (w : Worker) : w.anonymous.anonymous = w.anonymous := by
  obtain ⟨session, job⟩ := w
  cases session <;> simp [Worker.anonymous, Job.anonymous_idem, anonymousTx_idem]

theorem Sys.anonymous_idem (s : Sys W) : s.anonymous.anonymous = s.anonymous := by
  simp only [Sys.anonymous, map_store_idem anonymousRow_idem, Worker.anonymous_idem]

/-! ## What the code reads of a certificate -/

theorem checkUsable_anonymous (now : Nat) (c : Certificate) :
    c.anonymous.checkUsable now = c.checkUsable now := by
  simp only [Certificate.checkUsable, Certificate.anonymous, Option.isNone_map]

theorem getCertificate_anonymous (now : Nat) (v : View) (m : Nat) :
    getCertificate now (anonymousView v) m = getCertificate now v m := by
  have hrow : ∀ k, (anonymousView v (.certificate k) : Certificate) =
      (v (.certificate k) : Certificate).anonymous := fun _ => rfl
  unfold getCertificate
  simp only [hrow, checkUsable_anonymous]
  rfl

theorem authorizeStart_anonymous (now : Nat) (v : View) (m : Nat) :
    authorizeStart now (anonymousView v) m = authorizeStart now v m := by
  unfold authorizeStart
  rw [getCertificate_anonymous]
  rfl

theorem auth_anonymous (now : Nat) (v : View) (k : Nat) (issuerCuit : String) :
    Sys.auth now (anonymousView v) k issuerCuit = Sys.auth now v k issuerCuit := by
  have hrow : (anonymousView v (.certificate k) : Certificate) =
      (v (.certificate k) : Certificate).anonymous := rfl
  simp only [Sys.auth, hrow, checkUsable_anonymous]
  rfl

/-! ## What the code writes -/

theorem writeArca_anonymous (t : DbTx) (m : Nat) (f : ArcaStatus → ArcaStatus) :
    writeArca (anonymousTx t) m f = anonymousTx (writeArca t m f) := (map_write ..).symm

theorem writeAttempt_anonymous (t : DbTx) (i : Nat) (f : Attempt → Attempt) :
    writeAttempt (anonymousTx t) i f = anonymousTx (writeAttempt t i f) := (map_write ..).symm

theorem authorizeCreate_anonymous (P : Platform) (now : Nat) (t : DbTx) (m i : Nat) (c : Intent)
    (last : Nat) : authorizeCreate P now (anonymousTx t) m i c last =
      (authorizeCreate P now t m i c last).map fun (t', r) => (anonymousTx t', r) := by
  have hrow : ((anonymousTx t).view (.move m) : Move).prepareRequest (P.today now) (anonymousTx t).view
      c.seq.documentTypeCode c.seq.posNumber c.number =
      (t.view (.move m) : Move).prepareRequest (P.today now) t.view
        c.seq.documentTypeCode c.seq.posNumber c.number := rfl
  unfold authorizeCreate
  rw [hrow]
  cases checkSequence last c.number c.seq.posNumber with
  | error e => rfl
  | ok _ =>
    cases (t.view (.move m) : Move).prepareRequest (P.today now) t.view
        c.seq.documentTypeCode c.seq.posNumber c.number with
    | error e => rfl
    | ok hd =>
      refine congrArg (fun t' => Except.ok (t', _)) ?_
      rw [← writeArca_anonymous]
      exact congrArg (writeArca · m _) (map_write t (.attempt i) _).symm

theorem authorizeOutcome_anonymous (now durationMs : Nat) (t : DbTx) (m i : Nat)
    (result : Except Exn CaeResult) :
    authorizeOutcome now durationMs (anonymousTx t) m i result =
      (authorizeOutcome now durationMs t m i result).map anonymousTx := by
  rcases result with e | result
  · rcases e with ⟨_ | _ | _ | _, message, code, observations⟩ | _ | _ | _ | _ <;>
      simp only [authorizeOutcome, writeArca_anonymous, writeAttempt_anonymous, Except.map]
  · cases hdate : dateField result.caeDueDate <;>
      simp only [authorizeOutcome, hdate, writeArca_anonymous, writeAttempt_anonymous] <;> rfl

theorem reconcileFound_anonymous (now : Nat) (t : DbTx) (i : Nat) (moveId : Option Nat)
    (found : Option Found) : reconcileFound now (anonymousTx t) i moveId found =
      (reconcileFound now t i moveId found).map anonymousTx := by
  cases found with
  | none =>
    cases moveId <;>
      simp only [reconcileFound, applyNotFound, writeArca_anonymous, writeAttempt_anonymous, Except.map]
  | some found =>
    cases hdate : dateField found.caeDueDate <;> cases moveId <;>
      simp only [reconcileFound, applyAuthorized, hdate, writeArca_anonymous,
        writeAttempt_anonymous] <;> rfl

/-! ## The database -/

theorem commitTx_anonymous (s : Sys W) (t : DbTx) :
    s.anonymous.commitTx (anonymousTx t) = (s.commitTx t).map (Store.map anonymousRow) := by
  have hcommit : (anonymousTx t).commit s.anonymous.db =
      (t.commit s.db).map (Store.map anonymousRow) := map_commit ..
  unfold Sys.commitTx
  rw [hcommit]
  cases t.commit s.db with
  | none => rfl
  | some db =>
    simp only [Option.map_some, Option.bind_some]
    exact (apply_ite (Option.map (Store.map anonymousRow)) (uniqueAuthorized db.row s.nextAttempt)
      (some db) none).symm

section Steps

variable [DecidableEq W] (s : Sys W) (w : W)

theorem setWorker_anonymous (v : Worker) :
    (s.setWorker w v).anonymous = s.anonymous.setWorker w v.anonymous := by
  have hworker : (fun x => (Function.update s.worker w v x).anonymous) =
      Function.update (fun x => (s.worker x).anonymous) w v.anonymous := by
    funext x
    by_cases hx : x = w
    · subst hx
      rw [Function.update_self, Function.update_self]
    · rw [Function.update_of_ne hx, Function.update_of_ne hx]
  simp only [Sys.setWorker, Sys.anonymous, hworker]

theorem endRun_anonymous (job : Job) :
    (s.endRun w job).anonymous = s.anonymous.endRun w job.anonymous :=
  setWorker_anonymous (s.release w) w _

/-! ## Steps of the caller -/

theorem start_anonymous : s.anonymous.start w = (s.start w).map Sys.anonymous := by
  have hworker : s.anonymous.worker w = (s.worker w).anonymous := rfl
  unfold Sys.start
  rw [hworker]
  rcases s.worker w with ⟨_ | t, _ | _ | _ | _ | _⟩ <;> try rfl
  exact congrArg some (setWorker_anonymous s w ⟨some (Tx.start s.db), .idle⟩).symm

theorem commit_anonymous : s.anonymous.commit w = (s.commit w).map Sys.anonymous := by
  have hworker : s.anonymous.worker w = (s.worker w).anonymous := rfl
  unfold Sys.commit
  rw [hworker]
  rcases s.worker w with ⟨_ | t, _ | _ | _ | _ | _⟩ <;> try rfl
  have hidle := setWorker_anonymous s w ⟨none, .idle⟩
  simp only [Worker.anonymous, Option.map_some, Job.anonymous, commitTx_anonymous]
  cases s.commitTx t with
  | none => exact congrArg some hidle.symm
  | some db => exact congrArg (fun u : Sys W => some { u with db := db.map anonymousRow }) hidle.symm

theorem rollback_anonymous : s.anonymous.rollback w = (s.rollback w).map Sys.anonymous := by
  have hworker : s.anonymous.worker w = (s.worker w).anonymous := rfl
  unfold Sys.rollback
  rw [hworker]
  rcases s.worker w with ⟨_ | t, _ | _ | _ | _ | _⟩ <;> try rfl
  exact congrArg some (setWorker_anonymous s w ⟨none, .idle⟩).symm

/-! ## Steps of a request -/

theorem request_anonymous (P : Platform) (m : Nat) :
    s.anonymous.request P w m = (s.request P w m).map Sys.anonymous := by
  have hworker : s.anonymous.worker w = (s.worker w).anonymous := rfl
  have hlocks : s.anonymous.locks = s.locks := rfl
  unfold Sys.request
  rw [hworker, hlocks]
  rcases s.worker w with ⟨_ | t, _ | _ | _ | _ | _⟩ <;> try rfl
  have hkey : Sys.requestKey P (anonymousTx t).view m = Sys.requestKey P t.view m := rfl
  simp only [Worker.anonymous, Option.map_some, Job.anonymous, hkey]
  cases Sys.requestKey P t.view m with
  | error e => rfl
  | ok key =>
    by_cases h : s.locks key = none
    · have hlocked := setWorker_anonymous (s.lock key w) w ⟨some t, .request m key .locked⟩
      simp only [if_pos h]
      exact congrArg some hlocked.symm
    · simp only [if_neg h]
      rfl

theorem enter_anonymous : s.anonymous.enter w = (s.enter w).map Sys.anonymous := by
  have hworker : s.anonymous.worker w = (s.worker w).anonymous := rfl
  unfold Sys.enter
  rw [hworker]
  rcases s.worker w with ⟨session, _ | _ | _ | ⟨m, key, stage⟩ | ⟨queue, i, key, stage⟩⟩ <;> try rfl
  · cases stage <;> try rfl
    have hstart : authorizeStart s.anonymous.clock (Tx.start s.anonymous.db).view m =
        authorizeStart s.clock (Tx.start s.db).view m := authorizeStart_anonymous ..
    simp only [Worker.anonymous, Job.anonymous, Stage.anonymous, hstart]
    cases authorizeStart s.clock (Tx.start s.db).view m with
    | error e => exact congrArg some (endRun_anonymous s w .idle).symm
    | ok c =>
      exact congrArg some (setWorker_anonymous s w
        ⟨session, .request m key (.asking (Tx.start s.db) c)⟩).symm
  · cases stage <;> try rfl
    exact congrArg some (setWorker_anonymous s w
      ⟨session, .isolated queue i key (.working (Tx.start s.db))⟩).symm

theorem lastAuthorized_anonymous (P : Platform) (reply : SoapReply UltimoAutorizado) :
    s.anonymous.lastAuthorized P w reply = (s.lastAuthorized P w reply).map Sys.anonymous := by
  have hworker : s.anonymous.worker w = (s.worker w).anonymous := rfl
  have harca : s.anonymous.arca = s.arca := rfl
  unfold Sys.lastAuthorized
  rw [hworker, harca]
  rcases s.worker w with ⟨session, _ | _ | _ | ⟨m, key, stage⟩ | _⟩ <;> try rfl
  rcases stage with _ | ⟨tx, c⟩ | _ | _ | _ | _ | _ <;> try rfl
  have hauth : Sys.auth s.anonymous.clock (anonymousTx tx).view c.certificateId c.seq.issuerCuit =
      Sys.auth s.clock tx.view c.certificateId c.seq.issuerCuit := auth_anonymous ..
  simp only [Worker.anonymous, Job.anonymous, Stage.anonymous, hauth]
  cases Sys.auth s.clock tx.view c.certificateId c.seq.issuerCuit with
  | none => rfl
  | some ec =>
    by_cases h : s.arca.honestLast ⟨ec.1, ec.2, c.seq.posNumber, c.seq.documentTypeCode⟩ reply
    · simp only [if_pos h]
      cases feCompUltimoAutorizado c.seq.posNumber reply with
      | error e => exact congrArg some (endRun_anonymous s w .idle).symm
      | ok last =>
        have hcreate : authorizeCreate P s.anonymous.clock (anonymousTx tx) m s.anonymous.nextAttempt
            c last = _ := authorizeCreate_anonymous P s.clock tx m s.nextAttempt c last
        simp only [Except.bind, hcreate]
        cases authorizeCreate P s.clock tx m s.nextAttempt c last with
        | error e => exact congrArg some (endRun_anonymous s w .idle).symm
        | ok created =>
          have hset := setWorker_anonymous s w
            ⟨session, .request m key (.prepared created.1 s.nextAttempt created.2)⟩
          exact congrArg (fun u : Sys W => some { u with nextAttempt := s.nextAttempt + 1 }) hset.symm
    · simp only [if_neg h]
      rfl

theorem checkpoint_anonymous : s.anonymous.checkpoint w = (s.checkpoint w).map Sys.anonymous := by
  have hworker : s.anonymous.worker w = (s.worker w).anonymous := rfl
  unfold Sys.checkpoint
  rw [hworker]
  rcases s.worker w with ⟨session, _ | _ | _ | ⟨m, key, stage⟩ | _⟩ <;> try rfl
  rcases stage with _ | _ | ⟨tx, i, r⟩ | _ | _ | _ | _ <;> try rfl
  simp only [Worker.anonymous, Job.anonymous, Stage.anonymous, commitTx_anonymous]
  cases s.commitTx tx with
  | none => exact congrArg some (endRun_anonymous s w .idle).symm
  | some db =>
    have hset := setWorker_anonymous s w ⟨session, .request m key (.recorded i r)⟩
    exact congrArg (fun u : Sys W => some { u with db := db.map anonymousRow }) hset.symm

theorem resume_anonymous : s.anonymous.resume w = (s.resume w).map Sys.anonymous := by
  have hworker : s.anonymous.worker w = (s.worker w).anonymous := rfl
  unfold Sys.resume
  rw [hworker]
  rcases s.worker w with ⟨session, _ | _ | _ | ⟨m, key, stage⟩ | _⟩ <;> try rfl
  rcases stage with _ | _ | _ | ⟨i, r⟩ | _ | _ | _ <;> try rfl
  exact congrArg some (setWorker_anonymous s w
    ⟨session, .request m key (.sending (Tx.start s.db) i r)⟩).symm

theorem sendFails_anonymous (e : ArcaError) :
    s.anonymous.sendFails w e = (s.sendFails w e).map Sys.anonymous := by
  have hworker : s.anonymous.worker w = (s.worker w).anonymous := rfl
  unfold Sys.sendFails
  rw [hworker]
  rcases s.worker w with ⟨session, _ | _ | _ | ⟨m, key, stage⟩ | _⟩ <;> try rfl
  rcases stage with _ | _ | _ | _ | ⟨tx, i, r⟩ | _ | _ <;> try rfl
  by_cases h : e.kind = .aborted ∨ e.kind = .businessError
  · have houtcome : authorizeOutcome s.anonymous.clock 0 (anonymousTx tx) m i (.error (.arca e)) = _ :=
      authorizeOutcome_anonymous s.clock 0 tx m i (.error (.arca e))
    simp only [Worker.anonymous, Job.anonymous, Stage.anonymous, if_pos h, houtcome]
    cases authorizeOutcome s.clock 0 tx m i (.error (.arca e)) with
    | error e => exact congrArg some (endRun_anonymous s w .idle).symm
    | ok tx' =>
      exact congrArg some (setWorker_anonymous s w ⟨session, .request m key (.answered tx' i r)⟩).symm
  · simp only [Worker.anonymous, Job.anonymous, Stage.anonymous, if_neg h]
    rfl

theorem transmit_anonymous : s.anonymous.transmit w = (s.transmit w).map Sys.anonymous := by
  have hworker : s.anonymous.worker w = (s.worker w).anonymous := rfl
  unfold Sys.transmit
  rw [hworker]
  rcases s.worker w with ⟨session, _ | _ | _ | ⟨m, key, stage⟩ | _⟩ <;> try rfl
  rcases stage with _ | _ | _ | _ | ⟨tx, i, r⟩ | _ | _ <;> try rfl
  have hauth : Sys.auth s.anonymous.clock (anonymousTx tx).view r.certificateId r.issuerCuit =
      Sys.auth s.clock tx.view r.certificateId r.issuerCuit := auth_anonymous ..
  simp only [Worker.anonymous, Job.anonymous, Stage.anonymous, hauth]
  cases Sys.auth s.clock tx.view r.certificateId r.issuerCuit with
  | none => rfl
  | some ec =>
    have hset := setWorker_anonymous s w ⟨session, .request m key (.awaiting tx i r)⟩
    let sent : Transmission := ⟨i, ec.1, ec.2, r.header, r.detail, s.clock, .pending⟩
    exact congrArg (fun u : Sys W =>
      some { u with arca := { s.arca with sent := s.arca.sent ++ [sent] } }) hset.symm

theorem answer_anonymous (reply : SoapReply (Option CaeResponse)) (durationMs : Nat) :
    s.anonymous.answer w reply durationMs = (s.answer w reply durationMs).map Sys.anonymous := by
  have hworker : s.anonymous.worker w = (s.worker w).anonymous := rfl
  have harca : s.anonymous.arca = s.arca := rfl
  unfold Sys.answer
  rw [hworker, harca]
  rcases s.worker w with ⟨session, _ | _ | _ | ⟨m, key, stage⟩ | _⟩ <;> try rfl
  rcases stage with _ | _ | _ | _ | _ | ⟨tx, i, r⟩ | _ <;> try rfl
  by_cases h : s.arca.honestCae i reply
  · have houtcome : authorizeOutcome s.anonymous.clock durationMs (anonymousTx tx) m i _ = _ :=
      authorizeOutcome_anonymous s.clock durationMs tx m i (feCaeSolicitar reply)
    simp only [Worker.anonymous, Job.anonymous, Stage.anonymous, if_pos h, houtcome]
    cases authorizeOutcome s.clock durationMs tx m i (feCaeSolicitar reply) with
    | error e => exact congrArg some (endRun_anonymous s w .idle).symm
    | ok tx' =>
      exact congrArg some (setWorker_anonymous s w ⟨session, .request m key (.answered tx' i r)⟩).symm
  · simp only [Worker.anonymous, Job.anonymous, Stage.anonymous, if_neg h]
    rfl

/-! ## Steps of a reconciliation -/

theorem ofButtons_anonymous (queue : List Nat) :
    (Job.ofButtons queue).anonymous = Job.ofButtons queue := by
  cases queue <;> rfl

theorem ofCron_anonymous (queue : List Nat) : (Job.ofCron queue).anonymous = Job.ofCron queue := by
  cases queue <;> rfl

theorem reconcileMove_anonymous (m : Nat) :
    s.anonymous.reconcileMove w m = (s.reconcileMove w m).map Sys.anonymous := by
  have hworker : s.anonymous.worker w = (s.worker w).anonymous := rfl
  unfold Sys.reconcileMove
  rw [hworker]
  rcases s.worker w with ⟨_ | t, _ | _ | _ | _ | _⟩ <;> try rfl
  have hopen : findOpenForMove (anonymousTx t).view s.anonymous.nextAttempt m =
      findOpenForMove t.view s.nextAttempt m := rfl
  simp only [Worker.anonymous, Option.map_some, Job.anonymous, hopen]
  cases findOpenForMove t.view s.nextAttempt m with
  | nil => rfl
  | cons i queue => exact congrArg some (setWorker_anonymous s w ⟨some t, .buttons (i :: queue)⟩).symm

theorem reconcileAttempts_anonymous (attempts : List Nat) :
    s.anonymous.reconcileAttempts w attempts = (s.reconcileAttempts w attempts).map Sys.anonymous := by
  have hworker : s.anonymous.worker w = (s.worker w).anonymous := rfl
  unfold Sys.reconcileAttempts
  rw [hworker]
  rcases s.worker w with ⟨_ | t, _ | _ | _ | _ | _⟩ <;> try rfl
  have hset := setWorker_anonymous s w ⟨some t, .ofButtons attempts⟩
  rw [Worker.anonymous, ofButtons_anonymous] at hset
  exact congrArg some hset.symm

theorem search_anonymous (limit : Nat) :
    s.anonymous.search w limit = (s.search w limit).map Sys.anonymous := by
  have hworker : s.anonymous.worker w = (s.worker w).anonymous := rfl
  unfold Sys.search
  rw [hworker]
  rcases s.worker w with ⟨_ | t, _ | _ | _ | _ | _⟩ <;> try rfl
  have hset := setWorker_anonymous s w
    ⟨some t, .ofCron (cronSearch s.clock t.view s.nextAttempt limit)⟩
  rw [Worker.anonymous, ofCron_anonymous] at hset
  exact congrArg some hset.symm

theorem isolate_anonymous (P : Platform) :
    s.anonymous.isolate P w = (s.isolate P w).map Sys.anonymous := by
  have hworker : s.anonymous.worker w = (s.worker w).anonymous := rfl
  have hlocks : s.anonymous.locks = s.locks := rfl
  unfold Sys.isolate
  rw [hworker, hlocks]
  rcases s.worker w with ⟨_ | t, _ | _ | (_ | ⟨i, queue⟩) | _ | _⟩ <;> try rfl
  have hrow : (anonymousTx t).view (.attempt i) = t.view (.attempt i) := rfl
  have hnext : ∀ u : Sys W, (u.setWorker w ⟨some t, .ofCron queue⟩).anonymous =
      u.anonymous.setWorker w ⟨some (anonymousTx t), .ofCron queue⟩ := fun u => by
    rw [setWorker_anonymous, Worker.anonymous, ofCron_anonymous]
    rfl
  simp only [Worker.anonymous, Option.map_some, Job.anonymous, hrow]
  cases t.view (.attempt i) with
  | none => exact congrArg some (hnext s).symm
  | some a =>
    by_cases h : s.locks (P.lockKey a.seq) = none
    · have hset := setWorker_anonymous (s.lock (P.lockKey a.seq) w) w
        ⟨some t, .isolated queue i (P.lockKey a.seq) .locked⟩
      simp only [if_pos h]
      exact congrArg some hset.symm
    · simp only [if_neg h]
      exact congrArg some (hnext s).symm

omit [DecidableEq W] in
theorem reconcile_anonymous (t : DbTx) (i : Nat) (reply : SoapReply (Option ConsultResponse)) :
    s.anonymous.reconcile (anonymousTx t) i reply =
      (s.reconcile t i reply).map (Except.map anonymousTx) := by
  have hasked : reconcileCertificate (anonymousTx t).view i = reconcileCertificate t.view i := rfl
  have harca : s.anonymous.arca = s.arca := rfl
  unfold Sys.reconcile
  rw [hasked, harca]
  cases reconcileCertificate t.view i with
  | none => rfl
  | some ak =>
    obtain ⟨a, k⟩ := ak
    have hauth : Sys.auth s.anonymous.clock (anonymousTx t).view k a.issuerCuit =
        Sys.auth s.clock t.view k a.issuerCuit := auth_anonymous ..
    simp only [hauth]
    cases Sys.auth s.clock t.view k a.issuerCuit with
    | none => rfl
    | some ec =>
      by_cases h : s.arca.honestConsult
          ⟨⟨ec.1, ec.2, a.posNumber, a.documentTypeCode⟩, a.documentNumber⟩ reply
      · simp only [if_pos h, Option.map_some]
        cases feCompConsultar reply with
        | error e => rfl
        | ok found => exact congrArg some (reconcileFound_anonymous s.clock t i a.moveId found)
      · simp only [if_neg h]
        rfl

theorem consult_anonymous (reply : SoapReply (Option ConsultResponse)) :
    s.anonymous.consult w reply = (s.consult w reply).map Sys.anonymous := by
  have hworker : s.anonymous.worker w = (s.worker w).anonymous := rfl
  unfold Sys.consult
  rw [hworker]
  obtain ⟨session, job⟩ := s.worker w
  cases job with
  | idle | cron | request => cases session <;> rfl
  | buttons queue =>
    rcases session with _ | t <;> rcases queue with _ | ⟨i, queue⟩ <;> try rfl
    simp only [Worker.anonymous, Option.map_some, Job.anonymous, reconcile_anonymous]
    rcases s.reconcile t i reply with _ | e | t'
    · rfl
    · exact congrArg some (setWorker_anonymous s w ⟨none, .idle⟩).symm
    · have hset := setWorker_anonymous s w ⟨some t', .ofButtons queue⟩
      rw [Worker.anonymous, ofButtons_anonymous] at hset
      exact congrArg some hset.symm
  | isolated queue i key stage =>
    rcases stage with _ | t | _ <;> try (cases session <;> rfl)
    simp only [Worker.anonymous, Job.anonymous, IsolatedStage.anonymous, reconcile_anonymous]
    rcases s.reconcile t i reply with _ | e | t'
    · rfl
    · have hend := endRun_anonymous s w (.ofCron queue)
      rw [ofCron_anonymous] at hend
      exact congrArg some hend.symm
    · exact congrArg some (setWorker_anonymous s w
        ⟨session, .isolated queue i key (.settled t')⟩).symm

theorem skip_anonymous : s.anonymous.skip w = (s.skip w).map Sys.anonymous := by
  have hworker : s.anonymous.worker w = (s.worker w).anonymous := rfl
  have hasked (t : DbTx) (i : Nat) : reconcileCertificate (anonymousTx t).view i =
      reconcileCertificate t.view i := rfl
  unfold Sys.skip
  rw [hworker]
  obtain ⟨session, job⟩ := s.worker w
  cases job with
  | idle | cron | request => cases session <;> rfl
  | buttons queue =>
    rcases session with _ | t <;> rcases queue with _ | ⟨i, queue⟩ <;> try rfl
    simp only [Worker.anonymous, Option.map_some, Job.anonymous, hasked]
    by_cases h : reconcileCertificate t.view i = none
    · have hset := setWorker_anonymous s w ⟨some t, .ofButtons queue⟩
      rw [Worker.anonymous, ofButtons_anonymous] at hset
      simp only [if_pos h]
      exact congrArg some hset.symm
    · simp only [if_neg h]
      rfl
  | isolated queue i key stage =>
    rcases stage with _ | t | _ <;> try (cases session <;> rfl)
    simp only [Worker.anonymous, Job.anonymous, IsolatedStage.anonymous, hasked]
    by_cases h : reconcileCertificate t.view i = none
    · simp only [if_pos h]
      exact congrArg some (setWorker_anonymous s w ⟨session, .isolated queue i key (.settled t)⟩).symm
    · simp only [if_neg h]
      rfl

/-! ## The end of a run -/

theorem settle_anonymous : s.anonymous.settle w = (s.settle w).map Sys.anonymous := by
  have hworker : s.anonymous.worker w = (s.worker w).anonymous := rfl
  have hend (db : Db) (job : Job) (hjob : job.anonymous = job) :
      ({ s.endRun w job with db := db } : Sys W).anonymous =
        { s.anonymous.endRun w job with db := db.map anonymousRow } := by
    rw [← congrArg (s.anonymous.endRun w) hjob, ← endRun_anonymous]
    rfl
  unfold Sys.settle
  rw [hworker]
  rcases s.worker w with ⟨session, _ | _ | _ | ⟨m, key, stage⟩ | ⟨queue, i, key, stage⟩⟩ <;> try rfl
  · cases stage <;> try rfl
    simp only [Worker.anonymous, Job.anonymous, Stage.anonymous, commitTx_anonymous]
    cases s.commitTx _ with
    | none => exact congrArg some (endRun_anonymous s w .idle).symm
    | some db => exact congrArg some (hend db .idle rfl).symm
  · cases stage <;> try rfl
    have hjob := ofCron_anonymous queue
    simp only [Worker.anonymous, Job.anonymous, IsolatedStage.anonymous, commitTx_anonymous]
    cases s.commitTx _ with
    | none =>
      have hrun := endRun_anonymous s w (.ofCron queue)
      rw [hjob] at hrun
      exact congrArg some hrun.symm
    | some db => exact congrArg some (hend db (.ofCron queue) hjob).symm

theorem abort_anonymous : s.anonymous.abort w = (s.abort w).map Sys.anonymous := by
  have hworker : s.anonymous.worker w = (s.worker w).anonymous := rfl
  unfold Sys.abort
  rw [hworker]
  rcases s.worker w with ⟨session, _ | _ | _ | _ | ⟨queue, _, _, _⟩⟩
  · rfl
  · exact congrArg some (setWorker_anonymous s w ⟨none, .idle⟩).symm
  · exact congrArg some (setWorker_anonymous s w ⟨session, .idle⟩).symm
  · exact congrArg some (endRun_anonymous s w .idle).symm
  · have hrun := endRun_anonymous s w (.ofCron queue)
    rw [ofCron_anonymous] at hrun
    exact congrArg some hrun.symm

theorem kill_anonymous : s.anonymous.kill w = (s.kill w).anonymous :=
  (setWorker_anonymous (s.release w) w ⟨none, .idle⟩).symm

/-! ## What users do -/

section Users

omit s w
omit [DecidableEq W]

theorem write_certificate_anonymous {t t' : DbTx} (ht : anonymousTx t = anonymousTx t') (k : Nat)
    {c c' : Certificate} (hc : c.anonymous = c'.anonymous) :
    anonymousTx (t.write (.certificate k) c) = anonymousTx (t'.write (.certificate k) c') := by
  have hrow : anonymousRow (.certificate k) c = anonymousRow (.certificate k) c' := hc
  unfold anonymousTx at ht ⊢
  rw [map_write, map_write, ht, hrow]

/-- An action on a certificate that does not ask who bears it. -/
def Blind (f : Certificate → Except Exn Certificate) : Prop :=
  ∀ c, (f c.anonymous).map Certificate.anonymous = (f c).map Certificate.anonymous

theorem revoke_blind : Blind fun c => return c.actionRevoke := by
  intro c
  have hrevoked : c.anonymous.actionRevoke = c.actionRevoke.anonymous := rfl
  simp only [hrevoked, pure, Except.pure, Except.map, Certificate.anonymous_idem]

theorem checkExpiration_blind (now : Nat) : Blind fun c => return c.cronCheckExpiration now := by
  intro c
  have hmark : c.anonymous.cronCheckExpiration now = (c.cronCheckExpiration now).anonymous := by
    unfold Certificate.cronCheckExpiration
    by_cases h : c.state = .active ∧ c.certDateEnd.any (· < now)
    · have h' : c.anonymous.state = .active ∧ c.anonymous.certDateEnd.any (· < now) := h
      rw [if_pos h, if_pos h']
      rfl
    · have h' : ¬ (c.anonymous.state = .active ∧ c.anonymous.certDateEnd.any (· < now)) := h
      rw [if_neg h, if_neg h']
  simp only [hmark, pure, Except.pure, Except.map, Certificate.anonymous_idem]

theorem generateKeyAndCsr_blind (canWrite : Bool) (key : PrivateKey) :
    Blind (Certificate.actionGenerateKeyAndCsr canWrite key) := by
  intro c
  have hstate : c.anonymous.state = c.state := rfl
  have hname : c.anonymous.name = c.name := rfl
  unfold Certificate.actionGenerateKeyAndCsr
  rw [hstate, hname]
  cases canWrite with
  | false => rfl
  | true =>
    cases c.state with
    | draft =>
      have hfile := Option.map_map (fun _ => CertificateFile.other) (fun _ => CertificateFile.other)
        c.certificate
      exact congrArg (fun file => Except.ok { c with
        holderCuit := "", privateKey := some ⟨0⟩, csrPem := none, certificate := file,
        certDateStart := none, state := .csrGenerated }) hfile
    | csrGenerated | active | expired | revoked => rfl

theorem writeCertificate_anonymous {t t' : DbTx} (ht : anonymousTx t = anonymousTx t') (k : Nat)
    {f : Certificate → Except Exn Certificate} (hf : Blind f) :
    (writeCertificate t k f).map anonymousTx = (writeCertificate t' k f).map anonymousTx := by
  have hrow : (t.view (.certificate k) : Certificate).anonymous =
      (t'.view (.certificate k) : Certificate).anonymous :=
    congrFun (congrArg Tx.view ht) (.certificate k)
  have hleft : (f (t.view (.certificate k))).map Certificate.anonymous =
      (f (t'.view (.certificate k))).map Certificate.anonymous := by
    rw [← hf, hrow, hf]
  unfold writeCertificate
  rcases erased_eq hleft with ⟨x, h, h'⟩ | ⟨c, c', h, h', hc⟩ <;> rw [h, h']
  · rfl
  · exact congrArg Except.ok (write_certificate_anonymous ht k hc)

theorem checkExpirations_anonymous (now : Nat) (ks : List Nat) {t t' : DbTx}
    (ht : anonymousTx t = anonymousTx t') :
    ((UserOp.checkExpiration ks).run now t).map anonymousTx =
      ((UserOp.checkExpiration ks).run now t').map anonymousTx := by
  simp only [UserOp.run]
  induction ks generalizing t t' with
  | nil => exact congrArg Except.ok ht
  | cons k ks ih =>
    have hfirst := writeCertificate_anonymous ht k (checkExpiration_blind now)
    simp only [List.foldlM_cons]
    rcases erased_eq hfirst with ⟨x, h, h'⟩ | ⟨u, u', h, h', hu⟩
    · rw [h, h']
    · rw [h, h']
      exact ih hu

theorem post_anonymous (t : DbTx) (m : Nat) (number : Option DocumentNumber) :
    post (anonymousTx t) m number = (post t m number).map anonymousTx := by
  have hmove : ((anonymousTx t).view (.move m) : Move) = t.view (.move m) := rfl
  have hwrite (row : Move) : (anonymousTx t).write (.move m) row =
      anonymousTx (t.write (.move m) row) := (map_write t (.move m) row).symm
  have hedi (u : DbTx) : isEdi (anonymousTx u).view m = isEdi u.view m := rfl
  unfold post
  simp only [hmove, hwrite, hedi, writeArca_anonymous]
  by_cases hstate : (t.view (.move m) : Move).state ≠ .draft
  · simp only [if_pos hstate]
    rfl
  · simp only [if_neg hstate]
    split <;> rfl

theorem buttonDraft_anonymous (t : DbTx) (m : Nat) :
    buttonDraft (anonymousTx t) m = (buttonDraft t m).map anonymousTx := by
  have hmove : ((anonymousTx t).view (.move m) : Move) = t.view (.move m) := rfl
  have hwrite (row : Move) : (anonymousTx t).write (.move m) row =
      anonymousTx (t.write (.move m) row) := (map_write t (.move m) row).symm
  unfold buttonDraft
  simp only [hmove, hwrite]
  split_ifs <;> rfl

theorem editMove_anonymous (t : DbTx) (m : Nat) (form : MoveForm) :
    editMove (anonymousTx t) m form = (editMove t m form).map anonymousTx := by
  have hmove : ((anonymousTx t).view (.move m) : Move) = t.view (.move m) := rfl
  have hwrite (row : Move) : (anonymousTx t).write (.move m) row =
      anonymousTx (t.write (.move m) row) := (map_write t (.move m) row).symm
  unfold editMove
  simp only [hmove, hwrite]
  split_ifs <;> rfl

theorem writeCompany_anonymous (now : Nat) (t : DbTx) (c : Nat) (company : Company) :
    (UserOp.writeCompany c company).run now (anonymousTx t) =
      ((UserOp.writeCompany c company).run now t).map anonymousTx := by
  have hchecked : checkCertificateCompany (anonymousTx t).view c company =
      checkCertificateCompany t.view c company := rfl
  have hwrite : (anonymousTx t).write (.company c) company =
      anonymousTx (t.write (.company c) company) := (map_write t (.company c) company).symm
  simp only [UserOp.run, hchecked, hwrite]
  cases checkCertificateCompany t.view c company <;> rfl

/-- A certificate file is compared with the holder and the key on record. -/
def UserOp.uploads : UserOp → Bool
  | .processCertificate _ _ => true
  | _ => false

theorem run_anonymous {op : UserOp} (hop : ¬ op.uploads) (now : Nat) (t : DbTx) :
    (op.run now (anonymousTx t)).map anonymousTx = (op.run now t).map anonymousTx := by
  have hidem := anonymousTx_idem t
  have hstrong {r r' : Except Exn DbTx} (h : r = r'.map anonymousTx) :
      r.map anonymousTx = r'.map anonymousTx := by
    rw [h]
    cases r' with
    | error e => rfl
    | ok u => exact congrArg Except.ok (anonymousTx_idem u)
  cases op with
  | posting m number => exact hstrong (post_anonymous t m number)
  | resetToDraft m => exact hstrong (buttonDraft_anonymous t m)
  | edit m form => exact hstrong (editMove_anonymous t m form)
  | writeCompany c company => exact hstrong (writeCompany_anonymous now t c company)
  | writeJournal j journal =>
    exact hstrong (congrArg Except.ok (map_write t (.journal j) journal).symm)
  | generateKeyAndCsr k canWrite key =>
    exact writeCertificate_anonymous hidem k (generateKeyAndCsr_blind canWrite key)
  | processCertificate k file => exact absurd rfl hop
  | revoke k => exact writeCertificate_anonymous hidem k revoke_blind
  | checkExpiration ks => exact checkExpirations_anonymous now ks hidem

end Users

theorem user_anonymous {op : UserOp} (hop : ¬ op.uploads) :
    (s.anonymous.user w op).map Sys.anonymous = (s.user w op).map Sys.anonymous := by
  have hworker : s.anonymous.worker w = (s.worker w).anonymous := rfl
  unfold Sys.user
  rw [hworker]
  rcases s.worker w with ⟨_ | t, _ | _ | _ | _ | _⟩ <;> try rfl
  have hset (v v' : Worker) (hv : v.anonymous = v'.anonymous) :
      (s.anonymous.setWorker w v).anonymous = (s.setWorker w v').anonymous := by
    rw [setWorker_anonymous, setWorker_anonymous, Sys.anonymous_idem, hv]
  have hrun : (op.run s.anonymous.clock (anonymousTx t)).map anonymousTx =
      (op.run s.clock t).map anonymousTx := run_anonymous hop s.clock t
  simp only [Worker.anonymous, Option.map_some, Job.anonymous]
  rcases erased_eq hrun with ⟨x, h, h'⟩ | ⟨u, u', h, h', hu⟩
  · rw [h, h']
    exact congrArg some (hset _ _ rfl)
  · rw [h, h']
    exact congrArg some (hset _ _ (congrArg (fun t : DbTx => (⟨some t, .idle⟩ : Worker)) hu))

/-! ## Access tickets -/

omit [DecidableEq W] in
theorem commitTx_erased {t t' : DbTx} (ht : anonymousTx t = anonymousTx t') :
    (s.anonymous.commitTx t).map (Store.map anonymousRow) =
      (s.commitTx t').map (Store.map anonymousRow) := by
  rw [← commitTx_anonymous, ← commitTx_anonymous, Sys.anonymous_idem, ht]

omit [DecidableEq W] in
theorem ticket_anonymous (P : Platform) (k : Nat) (new : Ticket) :
    (s.anonymous.ticket P k new).map Sys.anonymous = (s.ticket P k new).map Sys.anonymous := by
  let c : Certificate := s.db.row (.certificate k)
  have hwritten : anonymousTx ((anonymousTx (Tx.start s.db)).write (.certificate k)
      (c.anonymous.storeToken "wsfe" new)) =
      anonymousTx ((Tx.start s.db).write (.certificate k) (c.storeToken "wsfe" new)) :=
    write_certificate_anonymous (anonymousTx_idem _) k (by
      simp [Certificate.anonymous, Certificate.storeToken, Function.comp_def])
  have hready : (s.locks (P.tokenLockKey k "wsfe") = none ∧ c.anonymous.privateKey ≠ none ∧
      c.anonymous.certificate ≠ none) ↔
      (s.locks (P.tokenLockKey k "wsfe") = none ∧ c.privateKey ≠ none ∧ c.certificate ≠ none) := by
    simp only [Certificate.anonymous, ne_eq, Option.map_eq_none_iff]
  have hdb (next : Option Db) (u : Sys W) : (next.map fun db => ({ u with db := db } : Sys W)).map
      Sys.anonymous = (next.map (Store.map anonymousRow)).map
        fun db => { u.anonymous with db := db } := by
    cases next <;> rfl
  by_cases h : s.locks (P.tokenLockKey k "wsfe") = none ∧ c.privateKey ≠ none ∧ c.certificate ≠ none
  · have hleft : s.anonymous.ticket P k new = _ := if_pos (hready.mpr h)
    have hright : s.ticket P k new = _ := if_pos h
    rw [hleft, hright, hdb, hdb, Sys.anonymous_idem]
    exact congrArg (Option.map _) (commitTx_erased s hwritten)
  · have hleft : s.anonymous.ticket P k new = none := if_neg (hready.not.mpr h)
    have hright : s.ticket P k new = none := if_neg h
    rw [hleft, hright]

omit [DecidableEq W] in
theorem arca_anonymous (next : Option Arca) :
    next.map (fun arca => ({ s.anonymous with arca := arca } : Sys W)) =
      (next.map fun arca => ({ s with arca := arca } : Sys W)).map Sys.anonymous := by
  cases next <;> rfl

/-! ## Steps -/

/-- The action uploads a certificate file, which is checked against key and holder. -/
def Act.uploads : Act W → Bool
  | .user _ op => op.uploads
  | _ => false

theorem step_anonymous (P : Platform) :
    Forgets (system (W := W) P) (fun a => ¬ a.uploads) Sys.anonymous := by
  intro s a ha
  cases a with
  | tick => exact congrArg some (Sys.anonymous_idem { s with clock := s.clock + 1 })
  | user w op => exact user_anonymous s w ha
  | ticket k new => exact ticket_anonymous s P k new
  | start w => exact step_forgets Sys.anonymous_idem (start_anonymous s w)
  | commit w => exact step_forgets Sys.anonymous_idem (commit_anonymous s w)
  | rollback w => exact step_forgets Sys.anonymous_idem (rollback_anonymous s w)
  | request w m => exact step_forgets Sys.anonymous_idem (request_anonymous s w P m)
  | enter w => exact step_forgets Sys.anonymous_idem (enter_anonymous s w)
  | lastAuthorized w reply =>
    exact step_forgets Sys.anonymous_idem (lastAuthorized_anonymous s w P reply)
  | checkpoint w => exact step_forgets Sys.anonymous_idem (checkpoint_anonymous s w)
  | resume w => exact step_forgets Sys.anonymous_idem (resume_anonymous s w)
  | sendFails w e => exact step_forgets Sys.anonymous_idem (sendFails_anonymous s w e)
  | transmit w => exact step_forgets Sys.anonymous_idem (transmit_anonymous s w)
  | answer w reply durationMs =>
    exact step_forgets Sys.anonymous_idem (answer_anonymous s w reply durationMs)
  | reconcileMove w m => exact step_forgets Sys.anonymous_idem (reconcileMove_anonymous s w m)
  | reconcileAttempts w attempts =>
    exact step_forgets Sys.anonymous_idem (reconcileAttempts_anonymous s w attempts)
  | search w limit => exact step_forgets Sys.anonymous_idem (search_anonymous s w limit)
  | isolate w => exact step_forgets Sys.anonymous_idem (isolate_anonymous s w P)
  | consult w reply => exact step_forgets Sys.anonymous_idem (consult_anonymous s w reply)
  | skip w => exact step_forgets Sys.anonymous_idem (skip_anonymous s w)
  | settle w => exact step_forgets Sys.anonymous_idem (settle_anonymous s w)
  | abort w => exact step_forgets Sys.anonymous_idem (abort_anonymous s w)
  | kill w =>
    exact step_forgets Sys.anonymous_idem (congrArg some (kill_anonymous s w))
  | record n cae => exact step_forgets Sys.anonymous_idem (arca_anonymous s _)
  | refuse n => exact step_forgets Sys.anonymous_idem (arca_anonymous s _)
  | elsewhere c cae => exact step_forgets Sys.anonymous_idem (arca_anonymous s _)

end Steps

/-- Two systems that differ in who holds their certificates alone do the same, until one
of them has a certificate file uploaded. -/
theorem holder_apart {P : Platform} {s s' t : Sys W} [DecidableEq W] {acts : List (Act W)}
    (hsame : s.anonymous = s'.anonymous)
    (h : Takes (system P) (fun _ a => ¬ a.uploads) s acts t) :
    ∃ t', Takes (system P) (fun _ a => ¬ a.uploads) s' acts t' ∧ t'.anonymous = t.anonymous ∧
      t'.arca = t.arca ∧ (∀ m, t'.db.row (.move m) = t.db.row (.move m)) ∧
      ∀ i, t'.db.row (.attempt i) = t.db.row (.attempt i) := by
  obtain ⟨t', htakes, ht'⟩ := (step_anonymous P).takes hsame h
  have hrow (k : Key) : anonymousRow k (t'.db.row k) = anonymousRow k (t.db.row k) :=
    congrFun (congrArg (fun u : Sys W => u.db.row) ht') k
  exact ⟨t', htakes, ht', (congrArg Sys.arca ht' :), fun m => hrow (.move m), fun i => hrow (.attempt i)⟩

/-! ### Two holders -/

/-- The same certificates, in somebody else's name and with another key. -/
def heldBy (cuit : String) (key : PrivateKey) : (k : Key) → Row k → Row k
  | .certificate _, (c : Certificate) =>
    { c with holderCuit := cuit, privateKey := c.privateKey.map fun _ => key }
  | .move _, row => row
  | .attempt _, row => row
  | .company _, row => row
  | .journal _, row => row

theorem heldBy_anonymous (cuit : String) (key : PrivateKey) (s : Sys W) :
    ({ s with db := s.db.map (heldBy cuit key) } : Sys W).anonymous = s.anonymous := by
  have hrow (k : Key) (row : Row k) : anonymousRow k (heldBy cuit key k row) = anonymousRow k row := by
    cases k with
    | certificate k => simp [anonymousRow, heldBy, Certificate.anonymous, Function.comp_def]
    | _ => rfl
  simp only [Sys.anonymous, Store.map, hrow]

theorem holder_apart_authorized :
    ∃ s s' t : Sys (Fin 3), ∃ acts, Reachable (system Office.platform) Always s ∧
      s'.db.row (.certificate 0) ≠ s.db.row (.certificate 0) ∧
      Takes (system Office.platform) (fun _ a => ¬ a.uploads) s acts t ∧
      Office.arcaState t 0 = .authorized ∧
      ∃ t', Takes (system Office.platform) (fun _ a => ¬ a.uploads) s' acts t' ∧
        t'.arca = t.arca ∧ t'.db.row (.move 0) = t.db.row (.move 0) := by
  let acts := Office.recorded 0 0 0 ++ Office.approved 0 0 "75000000000001"
  obtain ⟨s, hs, hp⟩ := Office.reaches Always (Office.posted 0 0)
    (fun s => (s.db.row (.certificate 0) : Certificate).holderCuit != "27-11111111-4" &&
      (run (system Office.platform) (fun _ a => ¬ a.uploads) s acts).any
        fun t => Office.arcaState t 0 == .authorized) (by decide +kernel)
  rw [Bool.and_eq_true, bne_iff_ne] at hp
  obtain ⟨t, ht, hauthorized⟩ := run_any hp.2
  have hsame := heldBy_anonymous "27-11111111-4" ⟨9⟩ s
  obtain ⟨t', htakes, -, harca, hmoves, -⟩ := holder_apart hsame.symm (run_takes ht)
  exact ⟨s, _, t, acts, hs, fun h => hp.1 (congrArg Certificate.holderCuit h).symm, run_takes ht,
    beq_iff_eq.mp hauthorized, t', htakes, harca, hmoves 0⟩

end ArcaEdi
