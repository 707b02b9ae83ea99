import ArcaEdi.System

/-!
# What a step can do

`step_cases` turns a step into one rule per outcome. Every later proof starts
from these rules, and none unfolds `step` again.
-/

namespace ArcaEdi

open Snapshot

variable {W : Type}

variable [DecidableEq W] {P : Platform} {s s' : Sys W} {a : Act W}

@[simp] theorem Sys.setWorker_worker (s : Sys W) (w : W) (v : Worker) :
    (s.setWorker w v).worker = Function.update s.worker w v := rfl
@[simp] theorem Sys.kill_db (s : Sys W) (w : W) : (s.kill w).db = s.db := rfl
@[simp] theorem Sys.kill_worker (s : Sys W) (w : W) :
    (s.kill w).worker = Function.update s.worker w ⟨none, .idle⟩ := rfl

/-! ## Rules -/

/-- The worker that acts. -/
def Act.worker? : Act W → Option W
  | .start w | .user w _ | .commit w | .rollback w | .request w _ | .enter w | .lastAuthorized w _
  | .checkpoint w | .resume w | .sendFails w _ | .transmit w | .answer w _ _ | .reconcileMove w _
  | .reconcileAttempts w _ | .search w _ | .isolate w | .consult w _ | .skip w | .settle w | .abort w
  | .kill w => some w
  | .tick | .ticket _ _ | .record _ _ | .refuse _ | .elsewhere _ _ => none

/-- The attempts that a reconcile button takes when it is pressed. -/
def Sys.pressed (s : Sys W) : Act W → List Nat
  | .reconcileMove w m =>
    ((s.worker w).session.map fun t => findOpenForMove t.view s.nextAttempt m).getD []
  | .reconcileAttempts _ attempts => attempts
  | _ => []

/-- How a request gets its result: a failure on its way out, or the answer to what it sent. -/
inductive Finishes (s : Sys W) (w : W) (tx : DbTx) (i : Nat) (r : Request) :
    Act W → Stage → Except Exn CaeResult → Prop
  | unsent {e : ArcaError} (he : e.kind = .aborted ∨ e.kind = .businessError) :
      Finishes s w tx i r (.sendFails w e) (.sending tx i r) (.error (.arca e))
  | answered {reply : SoapReply (Option CaeResponse)} {durationMs : Nat}
      (hh : s.arca.honestCae i reply = true) :
      Finishes s w tx i r (.answer w reply durationMs) (.awaiting tx i r) (feCaeSolicitar reply)

/-- One rule for each outcome of a step. -/
inductive Step (P : Platform) (s : Sys W) : Act W → Sys W → Prop
  | tick : Step P s .tick { s with clock := s.clock + 1 }
  | start {w : W} (hw : s.worker w = ⟨none, .idle⟩) :
      Step P s (.start w) (s.setWorker w ⟨some (Tx.start s.db), .idle⟩)
  | user {w : W} {t t' : DbTx} {op : UserOp} (hw : s.worker w = ⟨some t, .idle⟩)
      (h : op.run s.clock t = .ok t') :
      Step P s (.user w op) (s.setWorker w ⟨some t', .idle⟩)
  | close {a : Act W} {w : W} {t : DbTx} (hw : s.worker w = ⟨some t, .idle⟩)
      (ha : a.worker? = some w := by rfl) :
      Step P s a (s.setWorker w ⟨none, .idle⟩)
  | commit {w : W} {t : DbTx} {db : Db} (hw : s.worker w = ⟨some t, .idle⟩)
      (hc : s.commitTx t = some db) :
      Step P s (.commit w) { s.setWorker w ⟨none, .idle⟩ with db := db }
  | request {w : W} {t : DbTx} {m key : Nat} (hw : s.worker w = ⟨some t, .idle⟩)
      (hk : Sys.requestKey P t.view m = .ok key) (hl : s.locks key = none) :
      Step P s (.request w m) ((s.lock key w).setWorker w ⟨some t, .request m key .locked⟩)
  | enter {w : W} {se : Option DbTx} {m key : Nat} {c : Intent}
      (hw : s.worker w = ⟨se, .request m key .locked⟩)
      (h : authorizeStart s.clock s.db.row m = .ok c) :
      Step P s (.enter w) (s.setWorker w ⟨se, .request m key (.asking (Tx.start s.db) c)⟩)
  | create {w : W} {reply : SoapReply UltimoAutorizado} {se : Option DbTx} {m key last : Nat}
      {tx tx' : DbTx} {c : Intent} {r : Request}
      (hw : s.worker w = ⟨se, .request m key (.asking tx c)⟩)
      (h : authorizeCreate P s.clock tx m s.nextAttempt c last = .ok (tx', r)) :
      Step P s (.lastAuthorized w reply)
        { s.setWorker w ⟨se, .request m key (.prepared tx' s.nextAttempt r)⟩ with
          nextAttempt := s.nextAttempt + 1 }
  | checkpoint {w : W} {se : Option DbTx} {m key i : Nat} {tx : DbTx} {r : Request} {db : Db}
      (hw : s.worker w = ⟨se, .request m key (.prepared tx i r)⟩) (hc : s.commitTx tx = some db) :
      Step P s (.checkpoint w)
        { s.setWorker w ⟨se, .request m key (.recorded i r)⟩ with db := db }
  | resume {w : W} {se : Option DbTx} {m key i : Nat} {r : Request}
      (hw : s.worker w = ⟨se, .request m key (.recorded i r)⟩) :
      Step P s (.resume w) (s.setWorker w ⟨se, .request m key (.sending (Tx.start s.db) i r)⟩)
  | outcome {a : Act W} {w : W} {se : Option DbTx} {m key i durationMs : Nat} {tx tx' : DbTx}
      {r : Request} {stage : Stage} {result : Except Exn CaeResult}
      (hw : s.worker w = ⟨se, .request m key stage⟩) (hf : Finishes s w tx i r a stage result)
      (h : authorizeOutcome s.clock durationMs tx m i result = .ok tx') :
      Step P s a (s.setWorker w ⟨se, .request m key (.answered tx' i r)⟩)
  | transmit {w : W} {se : Option DbTx} {m key i : Nat} {tx : DbTx} {r : Request}
      {env : Environment} {cuit : Int} (hw : s.worker w = ⟨se, .request m key (.sending tx i r)⟩)
      (ha : Sys.auth s.clock tx.view r.certificateId r.issuerCuit = some (env, cuit)) :
      Step P s (.transmit w)
        { s.setWorker w ⟨se, .request m key (.awaiting tx i r)⟩ with
          arca := { s.arca with
            sent := s.arca.sent ++ [⟨i, env, cuit, r.header, r.detail, s.clock, .pending⟩] } }
  | buttons {a : Act W} {w : W} {t : DbTx} {queue : List Nat} (hw : s.worker w = ⟨some t, .idle⟩)
      (hq : s.pressed a = queue) (ha : a.worker? = some w := by rfl) :
      Step P s a (s.setWorker w ⟨some t, .ofButtons queue⟩)
  | search {w : W} {t : DbTx} {limit : Nat} (hw : s.worker w = ⟨some t, .idle⟩) :
      Step P s (.search w limit)
        (s.setWorker w ⟨some t, .ofCron (cronSearch s.clock t.view s.nextAttempt limit)⟩)
  | isolate {w : W} {t : DbTx} {i : Nat} {queue : List Nat} {at' : Attempt}
      (hw : s.worker w = ⟨some t, .cron (i :: queue)⟩) (ha : t.view (.attempt i) = some at')
      (hl : s.locks (P.lockKey at'.seq) = none) :
      Step P s (.isolate w) ((s.lock (P.lockKey at'.seq) w).setWorker w
        ⟨some t, .isolated queue i (P.lockKey at'.seq) .locked⟩)
  | next {a : Act W} {w : W} {t : DbTx} {i : Nat} {queue : List Nat}
      (hw : s.worker w = ⟨some t, .cron (i :: queue)⟩) (ha : a.worker? = some w := by rfl) :
      Step P s a (s.setWorker w ⟨some t, .ofCron queue⟩)
  | enterIsolated {w : W} {se : Option DbTx} {queue : List Nat} {i key : Nat}
      (hw : s.worker w = ⟨se, .isolated queue i key .locked⟩) :
      Step P s (.enter w) (s.setWorker w ⟨se, .isolated queue i key (.working (Tx.start s.db))⟩)
  | consult {w : W} {t t' : DbTx} {i : Nat} {queue : List Nat}
      {reply : SoapReply (Option ConsultResponse)}
      (hw : s.worker w = ⟨some t, .buttons (i :: queue)⟩)
      (h : s.reconcile t i reply = some (.ok t')) :
      Step P s (.consult w reply) (s.setWorker w ⟨some t', .ofButtons queue⟩)
  | consultIsolated {w : W} {se : Option DbTx} {t t' : DbTx} {i key : Nat} {queue : List Nat}
      {reply : SoapReply (Option ConsultResponse)}
      (hw : s.worker w = ⟨se, .isolated queue i key (.working t)⟩)
      (h : s.reconcile t i reply = some (.ok t')) :
      Step P s (.consult w reply) (s.setWorker w ⟨se, .isolated queue i key (.settled t')⟩)
  | skip {a : Act W} {w : W} {t : DbTx} {i : Nat} {queue : List Nat}
      (hw : s.worker w = ⟨some t, .buttons (i :: queue)⟩) (ha : a.worker? = some w := by rfl) :
      Step P s a (s.setWorker w ⟨some t, .ofButtons queue⟩)
  | skipIsolated {a : Act W} {w : W} {se : Option DbTx} {t : DbTx} {i key : Nat} {queue : List Nat}
      (hw : s.worker w = ⟨se, .isolated queue i key (.working t)⟩)
      (ha : a.worker? = some w := by rfl) :
      Step P s a (s.setWorker w ⟨se, .isolated queue i key (.settled t)⟩)
  | settle {w : W} {se : Option DbTx} {m key i : Nat} {tx : DbTx} {r : Request} {db : Db}
      (hw : s.worker w = ⟨se, .request m key (.answered tx i r)⟩) (hc : s.commitTx tx = some db) :
      Step P s (.settle w) { s.endRun w .idle with db := db }
  | settleIsolated {w : W} {se : Option DbTx} {queue : List Nat} {i key : Nat} {tx : DbTx} {db : Db}
      (hw : s.worker w = ⟨se, .isolated queue i key (.settled tx)⟩) (hc : s.commitTx tx = some db) :
      Step P s (.settle w) { s.endRun w (.ofCron queue) with db := db }
  /-- The run ends with nothing committed since its last checkpoint. -/
  | endRun {a : Act W} {w : W} {se : Option DbTx} {m key : Nat} {stage : Stage}
      (hw : s.worker w = ⟨se, .request m key stage⟩) (ha : a.worker? = some w := by rfl) :
      Step P s a (s.endRun w .idle)
  | endIsolated {a : Act W} {w : W} {se : Option DbTx} {queue : List Nat} {i key : Nat}
      {stage : IsolatedStage} (hw : s.worker w = ⟨se, .isolated queue i key stage⟩)
      (ha : a.worker? = some w := by rfl) :
      Step P s a (s.endRun w (.ofCron queue))
  | dropButtons {a : Act W} {w : W} {se : Option DbTx} {queue : List Nat}
      (hw : s.worker w = ⟨se, .buttons queue⟩) (ha : a.worker? = some w := by rfl) :
      Step P s a (s.setWorker w ⟨none, .idle⟩)
  | dropCron {a : Act W} {w : W} {se : Option DbTx} {queue : List Nat}
      (hw : s.worker w = ⟨se, .cron queue⟩) (ha : a.worker? = some w := by rfl) :
      Step P s a (s.setWorker w ⟨se, .idle⟩)
  | kill {w : W} : Step P s (.kill w) (s.kill w)
  | ticket {k : Nat} {new : Ticket} {db : Db}
      (hc : s.commitTx ((Tx.start s.db).write (.certificate k)
        ((s.db.row (.certificate k) : Certificate).storeToken "wsfe" new)) = some db) :
      Step P s (.ticket k new) { s with db := db }
  | record {n : Nat} {cae : String} {arca : Arca} (h : s.arca.record s.clock n cae = some arca) :
      Step P s (.record n cae) { s with arca := arca }
  | refuse {n : Nat} {arca : Arca} (h : s.arca.refuse n = some arca) :
      Step P s (.refuse n) { s with arca := arca }
  | elsewhere {c : Coordinates} {cae : String} {arca : Arca}
      (h : s.arca.issue c ⟨none, cae⟩ = some arca) :
      Step P s (.elsewhere c cae) { s with arca := arca }

theorem Job.ofButtons_ne_nil {queue : List Nat} (h : queue ≠ []) :
    Job.ofButtons queue = .buttons queue := by
  cases queue with
  | nil => exact absurd rfl h
  | cons i rest => rfl

theorem step_cases (h : step P s a = some s') : Step P s a s' := by
  cases a with
  | tick =>
    cases h
    exact .tick
  | start w =>
    simp only [step, Sys.start] at h
    split at h <;> cases h
    exact .start ‹_›
  | user w op =>
    simp only [step, Sys.user] at h
    split at h
    · split at h <;> cases h
      · exact .user ‹_› ‹_›
      · exact .close ‹_›
    · cases h
  | commit w =>
    simp only [step, Sys.commit] at h
    split at h
    · split at h <;> cases h
      · exact .commit ‹_› ‹_›
      · exact .close ‹_›
    · cases h
  | rollback w =>
    simp only [step, Sys.rollback] at h
    split at h <;> cases h
    exact .close ‹_›
  | request w m =>
    simp only [step, Sys.request] at h
    split at h
    · split at h
      · split at h <;> cases h
        exact .request ‹_› ‹_› ‹_›
      · cases h
    · cases h
  | enter w =>
    simp only [step, Sys.enter] at h
    split at h
    · split at h <;> cases h
      · exact .enter ‹_› ‹_›
      · exact .endRun ‹_›
    · cases h
      exact .enterIsolated ‹_›
    · cases h
  | lastAuthorized w reply =>
    simp only [step, Sys.lastAuthorized] at h
    split at h
    · split at h
      · split at h
        · split at h <;> cases h
          · next hbind =>
            cases hlast : feCompUltimoAutorizado _ reply with
            | ok last =>
              rw [hlast] at hbind
              exact .create ‹_› hbind
            | error e => simp [hlast, Except.bind] at hbind
          · exact .endRun ‹_›
        · cases h
      · cases h
    · cases h
  | checkpoint w =>
    simp only [step, Sys.checkpoint] at h
    split at h
    · split at h <;> cases h
      · exact .checkpoint ‹_› ‹_›
      · exact .endRun ‹_›
    · cases h
  | resume w =>
    simp only [step, Sys.resume] at h
    split at h <;> cases h
    exact .resume ‹_›
  | sendFails w e =>
    simp only [step, Sys.sendFails] at h
    split at h
    · split at h
      · split at h <;> cases h
        · exact .outcome ‹_› (.unsent ‹_›) ‹_›
        · exact .endRun ‹_›
      · cases h
    · cases h
  | transmit w =>
    simp only [step, Sys.transmit] at h
    split at h
    · split at h <;> cases h
      exact .transmit ‹_› ‹_›
    · cases h
  | answer w reply durationMs =>
    simp only [step, Sys.answer] at h
    split at h
    · split at h
      · split at h <;> cases h
        · exact .outcome ‹_› (.answered ‹_›) ‹_›
        · exact .endRun ‹_›
      · cases h
    · cases h
  | reconcileMove w m =>
    simp only [step, Sys.reconcileMove] at h
    split at h
    · split at h
      · cases h
      · next hne =>
        cases h
        rw [← Job.ofButtons_ne_nil hne]
        exact .buttons ‹_› (by rw [Sys.pressed, ‹s.worker w = _›]; rfl)
    · cases h
  | reconcileAttempts w attempts =>
    simp only [step, Sys.reconcileAttempts] at h
    split at h <;> cases h
    exact .buttons ‹_› rfl
  | search w limit =>
    simp only [step, Sys.search] at h
    split at h <;> cases h
    exact .search ‹_›
  | isolate w =>
    simp only [step, Sys.isolate] at h
    split at h
    · split at h
      · split at h <;> cases h
        · exact .isolate ‹_› ‹_› ‹_›
        · exact .next ‹_›
      · cases h
        exact .next ‹_›
    · cases h
  | consult w reply =>
    simp only [step, Sys.consult] at h
    split at h
    · split at h <;> cases h
      · exact .consult ‹_› ‹_›
      · exact .dropButtons ‹_›
    · split at h <;> cases h
      · exact .consultIsolated ‹_› ‹_›
      · exact .endIsolated ‹_›
    · cases h
  | skip w =>
    simp only [step, Sys.skip] at h
    split at h
    · split at h <;> cases h
      exact .skip ‹_›
    · split at h <;> cases h
      exact .skipIsolated ‹_›
    · cases h
  | settle w =>
    simp only [step, Sys.settle] at h
    split at h
    · split at h <;> cases h
      · exact .settle ‹_› ‹_›
      · exact .endRun ‹_›
    · split at h <;> cases h
      · exact .settleIsolated ‹_› ‹_›
      · exact .endIsolated ‹_›
    · cases h
  | abort w =>
    simp only [step, Sys.abort] at h
    split at h <;> cases h
    · exact .dropButtons ‹_›
    · exact .dropCron ‹_›
    · exact .endRun ‹_›
    · exact .endIsolated ‹_›
  | kill w =>
    cases h
    exact .kill
  | ticket k new =>
    simp only [step, Sys.ticket] at h
    split at h
    · obtain ⟨db, hdb, rfl⟩ := Option.map_eq_some_iff.mp h
      exact .ticket hdb
    · cases h
  | record n cae =>
    obtain ⟨arca, harca, rfl⟩ := Option.map_eq_some_iff.mp h
    exact .record harca
  | refuse n =>
    obtain ⟨arca, harca, rfl⟩ := Option.map_eq_some_iff.mp h
    exact .refuse harca
  | elsewhere c cae =>
    obtain ⟨arca, harca, rfl⟩ := Option.map_eq_some_iff.mp h
    exact .elsewhere harca

end ArcaEdi
