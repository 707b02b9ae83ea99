import ArcaEdi.Batch

/-!
# A request that nobody disturbs

`requestCae` is a run of the system: the steps that one worker takes for a request
when no other worker takes one in between.
-/

namespace ArcaEdi

open Snapshot Raise Runs

variable {W : Type} [DecidableEq W] {P : Platform} {s : Sys W} {w : W} {u : DbTx} {key m : Nat}
  {job job' : Job}

/-! ## A worker under its lock -/

/-- Worker `w` is at a job under a lock, for the session that waits for it. -/
def Sys.working (s : Sys W) (w : W) (u : DbTx) (key : Nat) (job : Job) : Sys W :=
  (s.lock key w).setWorker w ⟨some u, job⟩

@[simp] theorem working_worker : (s.working w u key job).worker w = ⟨some u, job⟩ :=
  Function.update_self ..

@[simp] theorem working_setWorker :
    (s.working w u key job).setWorker w ⟨some u, job'⟩ = s.working w u key job' := by
  simp [Sys.working, Sys.setWorker]

@[simp] theorem working_db : (s.working w u key job).db = s.db := rfl
@[simp] theorem working_nextAttempt : (s.working w u key job).nextAttempt = s.nextAttempt := rfl
@[simp] theorem working_clock : (s.working w u key job).clock = s.clock := rfl
@[simp] theorem working_arca : (s.working w u key job).arca = s.arca := rfl

theorem working_endRun (hfree : ∀ key, s.locks key = none) :
    (s.working w u key job).endRun w job' = s.setWorker w ⟨some u, job'⟩ := by
  have hlocks : (fun k => if Function.update s.locks key (some w) k = some w then none
      else Function.update s.locks key (some w) k) = s.locks := by
    funext k
    by_cases hk : k = key
    · subst hk
      simp [hfree]
    · simp [Function.update_of_ne hk, hfree]
  simp only [Sys.endRun, Sys.release, working_worker]
  simp only [Sys.working, Sys.lock, Sys.setWorker, Function.update_idem]
  exact congrArg (fun locks => { s with
    locks := locks, worker := Function.update s.worker w ⟨some u, job'⟩ }) hlocks

theorem leads_next {t t' : Sys W} {a : Act W} (h : Leads (system P) Always s t)
    (ht : step P t a = some t') : Leads (system P) Always s t' :=
  .step h trivial ht

/-! ## Up to the first checkpoint -/

section Checkpoint

variable {answers : Answers} {c : Intent} {header : FeCabReq} {detail : FeCaeDetRequest} {last : Nat}
  {line : Line} {L L' : Ledger}

/-- What has been committed is in the ledger. -/
def Sys.withLedger (s : Sys W) (L : Ledger) : Sys W :=
  { s with db := L.db, nextAttempt := L.nextAttempt }

omit [DecidableEq W] in
theorem commitTx_eq {t : DbTx} (hdb : s.db = L.db) :
    s.commitTx t = (L.commit t s.nextAttempt).map (·.db) := by
  unfold Sys.commitTx Ledger.commit
  rw [hdb]
  cases t.commit L.db with
  | none => rfl
  | some db =>
    simp only [Option.bind_some]
    split <;> rfl

omit [DecidableEq W] in
theorem buildable_line (hb : Buildable P s.clock L.db.row m c line header detail) :
    (⟨line.environment, line.cuit, c.seq.posNumber, c.seq.documentTypeCode⟩ : Line) = line := by
  rw [← hb.ptoVta, ← hb.cbteTipo]

theorem checkpoint_leads (hw : s.worker w = ⟨some u, .idle⟩) (hfree : ∀ key, s.locks key = none)
    (hkey : Sys.requestKey P u.view m = .ok key)
    (hb : Buildable P s.clock L.db.row m c line header detail)
    (hhonest : s.arca.honestLast line (answers.ultimoAutorizado line) = true)
    (hlast : feCompUltimoAutorizado line.ptoVta (answers.ultimoAutorizado line) = .ok last)
    (hnumber : c.number = last + 1)
    (hcommit : L.commit (checkpointTx s.clock L m c detail) (L.nextAttempt + 1) = some L') :
    Leads (system P) Always (s.withLedger L) ((s.withLedger L').working w u key (.request m key
      (.recorded L.nextAttempt ⟨c.certificateId, c.seq.issuerCuit, header, detail⟩))) := by
  let r : Request := ⟨c.certificateId, c.seq.issuerCuit, header, detail⟩
  let tx := checkpointTx s.clock L m c detail
  let during (L : Ledger) (stage : Stage) : Sys W :=
    (s.withLedger L).working w u key (.request m key stage)
  let prepared : Sys W :=
    { during L (.prepared tx L.nextAttempt r) with nextAttempt := L.nextAttempt + 1 }
  have hrequest : step P (s.withLedger L) (.request w m) = some (during L .locked) := by
    simp [step, Sys.request, Sys.withLedger, during, hw, hkey, hfree, Sys.working]
  have henter : step P (during L .locked) (.enter w) = some (during L (.asking (Tx.start L.db) c)) := by
    simp [step, Sys.enter, during, Sys.withLedger, hb.start]
  have hline := buildable_line hb
  have hcreate : authorizeCreate P s.clock (Tx.start L.db) m L.nextAttempt c last = .ok (tx, r) :=
    create_iff.mpr ⟨hnumber, header, detail, hb.request, rfl, rfl⟩
  have hasked : step P (during L (.asking (Tx.start L.db) c))
      (.lastAuthorized w (answers.ultimoAutorizado line)) = some prepared := by
    rw [hb.ptoVta] at hlast
    simp [step, Sys.lastAuthorized, during, Sys.withLedger, hb.auth, hline, hhonest, hlast, Except.bind,
      hcreate, prepared]
  have hrecorded : step P prepared (.checkpoint w) = some (during L' (.recorded L.nextAttempt r)) := by
    have hids : L'.nextAttempt = L.nextAttempt + 1 := (ledger_commit hcommit).2
    have hdb : prepared.commitTx tx = some L'.db := by
      rw [commitTx_eq (L := L) rfl]
      exact congrArg (Option.map Ledger.db) hcommit
    have hworker : prepared.worker w = ⟨some u, .request m key (.prepared tx L.nextAttempt r)⟩ :=
      working_worker
    simp only [step, Sys.checkpoint, hworker, hdb]
    simp [prepared, during, Sys.withLedger, Sys.working, Sys.setWorker, Sys.lock, hids]
  exact leads_next (leads_next (leads_next (leads_next .refl hrequest) henter) hasked) hrecorded

end Checkpoint

/-! ## From the answer on -/

section Answer

variable {answers : Answers} {L : Ledger} {i : Nat} {r : Request} {arca : Arca} {tx : DbTx}

/-- The end of a run, with what it could commit of `tx`. -/
def Sys.settled (s : Sys W) (w : W) (tx : DbTx) (job : Job) : Sys W :=
  match s.commitTx tx with
  | some db => { s.endRun w job with db := db }
  | none => s.endRun w job

theorem settle_step (hfree : ∀ key, s.locks key = none)
    (hsettle : ∀ t : Sys W, t.worker w = ⟨some u, job⟩ → t.settle w = some (t.settled w tx job')) :
    step P ((s.withLedger L).working w u key job) (.settle w) =
      some ((s.withLedger ((L.commit tx L.nextAttempt).getD L)).setWorker w ⟨some u, job'⟩) := by
  have hend : ((s.withLedger L).working w u key job).endRun w job' =
      (s.withLedger L).setWorker w ⟨some u, job'⟩ := working_endRun hfree
  have hcommit : ((s.withLedger L).working w u key job).commitTx tx =
      (L.commit tx L.nextAttempt).map (·.db) := commitTx_eq rfl
  rw [step, hsettle _ working_worker, Sys.settled, hcommit, hend]
  cases hledger : L.commit tx L.nextAttempt with
  | none => rfl
  | some L' => simp [Sys.withLedger, Sys.setWorker, (ledger_commit hledger).2]

theorem setWorker_idle (hw : s.worker w = ⟨some u, .idle⟩) : s.setWorker w ⟨some u, .idle⟩ = s := by
  rw [Sys.setWorker, ← hw, Function.update_eq_self]

theorem answer_leads {reply : SoapReply (Option CaeResponse)} (hw : s.worker w = ⟨some u, .idle⟩)
    (hfree : ∀ key, s.locks key = none) (hhonest : s.arca.honestCae i reply = true) :
    Leads (system P) Always
      ((s.withLedger L).working w u key (.request m key (.awaiting (Tx.start L.db) i r)))
      (s.withLedger (authorizeFrom s.clock L m i (feCaeSolicitar reply))) := by
  let during (stage : Stage) : Sys W := (s.withLedger L).working w u key (.request m key stage)
  unfold authorizeFrom
  split
  · next t ht =>
    have hanswer : step P (during (.awaiting (Tx.start L.db) i r)) (.answer w reply 0) =
        some (during (.answered t i r)) := by
      simp [step, Sys.answer, during, Sys.withLedger, hhonest, ht]
    have hsettled : step P (during (.answered t i r)) (.settle w) =
        some ((s.withLedger ((L.commit t L.nextAttempt).getD L)).setWorker w ⟨some u, .idle⟩) := by
      refine settle_step hfree fun t' h => ?_
      simp only [Sys.settle, h, Sys.settled]
      cases t'.commitTx t <;> rfl
    rw [setWorker_idle (s := s.withLedger _) hw] at hsettled
    exact leads_next (leads_next .refl hanswer) hsettled
  · next e he =>
    have hanswer : step P (during (.awaiting (Tx.start L.db) i r)) (.answer w reply 0) =
        some ((during (.awaiting (Tx.start L.db) i r)).endRun w .idle) := by
      simp [step, Sys.answer, during, Sys.withLedger, hhonest, he]
    rw [working_endRun (s := s.withLedger L) hfree, setWorker_idle (s := s.withLedger L) hw] at hanswer
    exact leads_next .refl hanswer

end Answer

/-! ## The whole request -/

/-- ARCA may come to answer as `answers` does, and then `Q` holds of it and of the voucher
that it was asked for. It answers the second call once the request has left. -/
structure Answerable (P : Platform) (answers : Answers) (Q : Arca → Coordinates → Prop) (s : Sys W) :
    Prop where
  last : ∀ line, s.arca.honestLast line (answers.ultimoAutorizado line) = true
  cae : ∀ (t : Sys W) (sent : Transmission), t.clock = s.clock → sent.sentAt = s.clock →
    sent.fate = .pending → sent.coordinates.number = s.arca.last sent.coordinates.line + 1 →
    t.arca = { s.arca with sent := s.arca.sent ++ [sent] } →
    ∃ arca, Leads (system P) Always t { t with arca := arca } ∧
      arca.honestCae sent.attempt (answers.caeSolicitar sent.coordinates) = true ∧
      Q arca sent.coordinates

theorem ultimo_spec {reply : SoapReply UltimoAutorizado} {posNumber last : Nat}
    (h : feCompUltimoAutorizado posNumber reply = .ok last) :
    ∃ r, reply = .response r ∧ r.cbteNro = some last := by
  unfold feCompUltimoAutorizado at h
  simp only [bind_eq_ok] at h
  obtain ⟨r, hcall, ⟨⟩, -, h⟩ := h
  cases reply with
  | response response =>
    cases hcall
    split at h
    · next number hnumber =>
      cases h
      exact ⟨r, rfl, hnumber⟩
    · exact absurd h (by simp [raiseArca])
  | fault | transportError | xmlSyntaxError | exception =>
    exact absurd hcall (by simp [call, raiseArca])

theorem honest_last {arca : Arca} {line : Line} {reply : SoapReply UltimoAutorizado}
    {posNumber last : Nat} (h : feCompUltimoAutorizado posNumber reply = .ok last) :
    arca.honestLast line reply = true ↔ last = arca.last line := by
  obtain ⟨r, rfl, hlast⟩ := ultimo_spec h
  simp [Arca.honestLast, hlast]

theorem recorded_leads (key : Nat) {answers : Answers} {Q : Arca → Coordinates → Prop} {L : Ledger}
    {i : Nat} {r : Request} {env : Environment} {cuit : Int} (hw : s.worker w = ⟨some u, .idle⟩)
    (hfree : ∀ key, s.locks key = none)
    (ha : Answerable P answers Q s)
    (hauth : Sys.auth s.clock L.db.row r.certificateId r.issuerCuit = some (env, cuit))
    (hnext : r.detail.cbteDesde = s.arca.last ⟨env, cuit, r.header.ptoVta, r.header.cbteTipo⟩ + 1) :
    ∃ arca, Leads (system P) Always
      ((s.withLedger L).working w u key (.request m key (.recorded i r)))
      { s.withLedger (authorizeFrom s.clock L m i (feCaeSolicitar (answers.caeSolicitar
        ⟨⟨env, cuit, r.header.ptoVta, r.header.cbteTipo⟩, r.detail.cbteDesde⟩))) with arca := arca } ∧
      Q arca ⟨⟨env, cuit, r.header.ptoVta, r.header.cbteTipo⟩, r.detail.cbteDesde⟩ := by
  let during (arca : Arca) (stage : Stage) : Sys W :=
    ({ s with arca := arca }.withLedger L).working w u key (.request m key stage)
  let sent : Transmission := ⟨i, env, cuit, r.header, r.detail, s.clock, .pending⟩
  let left : Arca := { s.arca with sent := s.arca.sent ++ [sent] }
  have hresumed : step P (during s.arca (.recorded i r)) (.resume w) =
      some (during s.arca (.sending (Tx.start L.db) i r)) := by
    simp [step, Sys.resume, during, Sys.withLedger]
  have hleft : step P (during s.arca (.sending (Tx.start L.db) i r)) (.transmit w) =
      some (during left (.awaiting (Tx.start L.db) i r)) := by
    simp [step, Sys.transmit, during, Sys.withLedger, hauth, left, sent, Sys.working, Sys.setWorker,
      Sys.lock]
  obtain ⟨arca, hanswered, hhonest, hq⟩ := ha.cae (during left (.awaiting (Tx.start L.db) i r)) sent
    rfl rfl rfl hnext rfl
  exact ⟨arca, leads_trans (leads_trans (leads_next (leads_next .refl hresumed) hleft) hanswered)
    (answer_leads (s := { s with arca := arca }) hw hfree hhonest), hq⟩

theorem requestCae_leads {answers : Answers} {Q : Arca → Coordinates → Prop} {L : Ledger}
    (hw : s.worker w = ⟨some u, .idle⟩) (hfree : ∀ key, s.locks key = none) (ha : Answerable P answers Q s) :
    ∃ arca, Leads (system P) Always (s.withLedger L)
      { s.withLedger (requestCae P s.clock u.view answers L m).1 with arca := arca } ∧
      (requestCae P s.clock u.view answers L m).2.elim (arca = s.arca) (Q arca) := by
  cases hkey : Sys.requestKey P u.view m with
  | error e =>
    have hnothing : requestCae P s.clock u.view answers L m = (L, none) := by
      unfold requestCae
      rw [hkey]
    rw [hnothing]
    exact ⟨s.arca, .refl, rfl⟩
  | ok key =>
    rcases requestCae_cases P s.clock u.view answers L m with
      heq | ⟨c, line, header, detail, last, L', hb, hlast, hnumber, hcommit, heq⟩
    · rw [heq]
      exact ⟨s.arca, .refl, rfl⟩
    rw [heq]
    have hrecorded := checkpoint_leads hw hfree hkey hb (ha.last line) hlast hnumber hcommit
    obtain ⟨rfl, hdesde, -, -⟩ := prepareRequest_spec hb.request
    have hline := buildable_line hb
    have hauth : Sys.auth s.clock L'.db.row c.certificateId c.seq.issuerCuit =
        some (line.environment, line.cuit) :=
      (auth_congr (checkpoint_spec hcommit).1 _ _).trans hb.auth
    have hnext : detail.cbteDesde = s.arca.last line + 1 := by
      rw [hdesde, hnumber, (honest_last hlast).mp (ha.last line)]
    obtain ⟨arca, hrest, hq⟩ := recorded_leads key (m := m) (i := L.nextAttempt)
      (r := ⟨c.certificateId, c.seq.issuerCuit, ⟨1, c.seq.posNumber, c.seq.documentTypeCode⟩, detail⟩)
      hw hfree ha hauth (by rw [hline]; exact hnext)
    simp only [hline, hdesde] at hrest hq
    exact ⟨arca, leads_trans hrecorded hrest, hq⟩

end ArcaEdi
