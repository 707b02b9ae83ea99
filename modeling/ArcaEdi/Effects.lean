import ArcaEdi.Steps

/-!
# Steps, seen from the database

Whatever a step does, the database stays or takes in one open transaction, and
each open transaction is an old one, a new snapshot, or an old one with one more
write.
-/

namespace ArcaEdi

open Snapshot

/-! ## Open transactions -/

def Stage.tx? : Stage → Option DbTx
  | .asking tx _ | .prepared tx _ _ | .sending tx _ _ | .awaiting tx _ _ | .answered tx _ _ => some tx
  | .locked | .recorded _ _ => none

def IsolatedStage.tx? : IsolatedStage → Option DbTx
  | .working tx | .settled tx => some tx
  | .locked => none

def Job.tx? : Job → Option DbTx
  | .request _ _ stage => stage.tx?
  | .isolated _ _ _ stage => stage.tx?
  | .idle | .buttons _ | .cron _ => none

def Worker.Holds (v : Worker) (t : DbTx) : Prop := v.session = some t ∨ v.job.tx? = some t

@[simp] theorem ofButtons_tx (queue : List Nat) : (Job.ofButtons queue).tx? = none := by
  cases queue <;> rfl
@[simp] theorem ofCron_tx (queue : List Nat) : (Job.ofCron queue).tx? = none := by
  cases queue <;> rfl

variable {W : Type} {s s' : Sys W} {t t' u : DbTx} {w : W}

/-- Somebody has the transaction open. -/
def Live (s : Sys W) (t : DbTx) : Prop := ∃ w, (s.worker w).Holds t

theorem live_session (h : (s.worker w).session = some t) : Live s t := ⟨w, .inl h⟩
theorem live_job (h : (s.worker w).job.tx? = some t) : Live s t := ⟨w, .inr h⟩

theorem live_work {se : Option DbTx} {job : Job} (hw : s.worker w = ⟨se, job⟩)
    (ht : job.tx? = some t) : Live s t := by
  refine live_job (w := w) ?_
  rw [hw]
  exact ht

/-- The attempt that the worker is about to reconcile, and the transaction that it does it on. -/
def Worker.target? : Worker → Option (DbTx × Nat)
  | ⟨some t, .buttons (i :: _)⟩ => some (t, i)
  | ⟨_, .isolated _ i _ (.working t)⟩ => some (t, i)
  | _ => none

theorem target_isolated {se : Option DbTx} {queue : List Nat} {i key : Nat}
    (hw : s.worker w = ⟨se, .isolated queue i key (.working t)⟩) :
    (s.worker w).target? = some (t, i) := by
  rw [hw]
  cases se <;> rfl

theorem live_of_target {i : Nat} (h : (s.worker w).target? = some (t, i)) : Live s t := by
  unfold Worker.target? at h
  split at h
  · next hw =>
    cases h
    exact live_session (w := w) (by rw [hw])
  · next hw =>
    cases h
    exact live_work hw rfl
  · cases h

theorem Finishes.tx_eq {a : Act W} {i : Nat} {r : Request} {stage : Stage}
    {result : Except Exn CaeResult} (h : Finishes s w t i r a stage result) : stage.tx? = some t := by
  cases h <;> rfl

variable [DecidableEq W] {P : Platform} {a : Act W}

theorem live_update {v : Worker} (hs : s'.worker = Function.update s.worker w v) (h : Live s' u) :
    v.Holds u ∨ Live s u := by
  unfold Live at h
  rw [hs, Function.exists_update_iff s.worker fun _ worker => worker.Holds u] at h
  exact h.imp_right fun ⟨w', _, hw'⟩ => ⟨w', hw'⟩

/-! ## Writes -/

/-- What writes on a transaction, and what it makes of it. -/
inductive Writes (P : Platform) (s : Sys W) : Act W → DbTx → DbTx → Prop
  | user {w : W} {t t' : DbTx} {op : UserOp} (hw : s.worker w = ⟨some t, .idle⟩)
      (h : op.run s.clock t = .ok t') : Writes P s (.user w op) t t'
  | create {w : W} {reply : SoapReply UltimoAutorizado} {se : Option DbTx} {m key last : Nat}
      {t t' : DbTx} {c : Intent} {r : Request}
      (hw : s.worker w = ⟨se, .request m key (.asking t c)⟩)
      (h : authorizeCreate P s.clock t m s.nextAttempt c last = .ok (t', r)) :
      Writes P s (.lastAuthorized w reply) t t'
  | outcome {a : Act W} {w : W} {se : Option DbTx} {m key i durationMs : Nat} {t t' : DbTx}
      {r : Request} {stage : Stage} {result : Except Exn CaeResult}
      (hw : s.worker w = ⟨se, .request m key stage⟩) (hf : Finishes s w t i r a stage result)
      (h : authorizeOutcome s.clock durationMs t m i result = .ok t') : Writes P s a t t'
  | reconcile {w : W} {t t' : DbTx} {i : Nat} {reply : SoapReply (Option ConsultResponse)}
      (hw : (s.worker w).target? = some (t, i)) (h : s.reconcile t i reply = some (.ok t')) :
      Writes P s (.consult w reply) t t'

omit [DecidableEq W] in
theorem Writes.live (h : Writes P s a t t') : Live s t := by
  cases h with
  | user hw h => exact live_session (congrArg Worker.session hw)
  | create hw h => exact live_work hw rfl
  | outcome hw hf h => exact live_work hw hf.tx_eq
  | reconcile hw h => exact live_of_target hw

/-! ## Effects -/

/-- A login of the same certificate, committed on its own. -/
def ticketTx (db : Db) (k : Nat) (new : Ticket) : DbTx :=
  (Tx.start db).write (.certificate k) ((db.row (.certificate k) : Certificate).storeToken "wsfe" new)

/-- A step does nothing to the rows, writes on one transaction, or commits one. -/
inductive Effect (P : Platform) (s : Sys W) (a : Act W) (s' : Sys W) : Prop
  | quiet (hdb : s'.db = s.db) (htx : ∀ u, Live s' u → u = Tx.start s.db ∨ Live s u)
  | write {t t' : DbTx} (hw : Writes P s a t t') (hdb : s'.db = s.db)
      (hn : ∀ w reply, a = .lastAuthorized w reply → s'.nextAttempt = s.nextAttempt + 1)
      (htx : ∀ u, Live s' u → u = t' ∨ Live s u)
  | commit {t : DbTx} (ht : Live s t) (hc : s.commitTx t = some s'.db)
      (htx : ∀ u, Live s' u → Live s u)
  | ticket {k : Nat} {new : Ticket} (hc : s.commitTx (ticketTx s.db k new) = some s'.db)
      (htx : ∀ u, Live s' u → Live s u)

theorem live_keep {v : Worker} (hs : s'.worker = Function.update s.worker w v)
    (hse : v.session = none ∨ v.session = (s.worker w).session)
    (hjob : v.job.tx? = none ∨ v.job.tx? = (s.worker w).job.tx?) : ∀ u, Live s' u → Live s u := by
  intro u hu
  rcases live_update hs hu with (h | h) | h
  · rcases hse with hse | hse
    · exact absurd (h.symm.trans hse) (by simp)
    · exact live_session (hse ▸ h)
  · rcases hjob with hjob | hjob
    · exact absurd (h.symm.trans hjob) (by simp)
    · exact live_job (hjob ▸ h)
  · exact h

theorem live_job_new {v : Worker} (hs : s'.worker = Function.update s.worker w v)
    (hse : v.session = (s.worker w).session) (ht : v.job.tx? = some t) :
    ∀ u, Live s' u → u = t ∨ Live s u := by
  intro u hu
  rcases live_update hs hu with (h | h) | h
  · exact .inr (live_session (hse ▸ h))
  · exact .inl (Option.some.inj (h.symm.trans ht))
  · exact .inr h

theorem live_session_new {v : Worker} (hs : s'.worker = Function.update s.worker w v)
    (hse : v.session = some t) (ht : v.job.tx? = none) :
    ∀ u, Live s' u → u = t ∨ Live s u := by
  intro u hu
  rcases live_update hs hu with (h | h) | h
  · exact .inl (Option.some.inj (h.symm.trans hse))
  · exact absurd (h.symm.trans ht) (by simp)
  · exact .inr h

theorem step_effect (h : Step P s a s') : Effect P s a s' := by
  have hsame : ∀ {s' : Sys W}, s'.worker = s.worker → ∀ u, Live s' u → Live s u := by
    rintro s' hs u ⟨w, hw⟩
    exact ⟨w, hs ▸ hw⟩
  have hquiet : ∀ {s' : Sys W}, s'.db = s.db → (∀ u, Live s' u → Live s u) → Effect P s a s' :=
    fun hdb htx => .quiet hdb fun u hu => .inr (htx u hu)
  cases h with
  | tick | record | refuse | elsewhere => exact hquiet rfl (hsame rfl)
  | start hw => exact .quiet rfl (live_session_new rfl rfl rfl)
  | user hw h => exact .write (.user hw h) rfl (by simp) (live_session_new rfl rfl rfl)
  | close | kill | dropButtons => exact hquiet rfl (live_keep rfl (.inl rfl) (.inl rfl))
  | commit hw hc =>
    exact .commit (live_session (congrArg Worker.session hw)) hc
      (live_keep rfl (.inl rfl) (.inl rfl))
  | request hw | isolate hw | dropCron hw =>
    exact hquiet rfl (live_keep rfl (.inr (by rw [hw])) (.inl rfl))
  | enter hw | resume hw | enterIsolated hw =>
    exact .quiet rfl (live_job_new rfl (by rw [hw]) rfl)
  | create hw h =>
    exact .write (.create hw h) rfl (fun _ _ _ => rfl) (live_job_new rfl (by rw [hw]) rfl)
  | checkpoint hw hc =>
    exact .commit (live_work hw rfl) hc (live_keep rfl (.inr (by rw [hw])) (.inl rfl))
  | outcome hw hf h =>
    exact .write (.outcome hw hf h) rfl (by cases hf <;> simp) (live_job_new rfl (by rw [hw]) rfl)
  | transmit hw | skipIsolated hw =>
    exact hquiet rfl (live_keep rfl (.inr (by rw [hw])) (.inr (by rw [hw]; rfl)))
  | buttons hw | skip hw =>
    exact hquiet rfl (live_keep rfl (.inr (by rw [hw])) (.inl (ofButtons_tx _)))
  | search hw | next hw =>
    exact hquiet rfl (live_keep rfl (.inr (by rw [hw])) (.inl (ofCron_tx _)))
  | consult hw h =>
    exact .write (.reconcile (by rw [hw]; rfl) h) rfl (by simp)
      (live_session_new rfl rfl (ofButtons_tx _))
  | consultIsolated hw h =>
    exact .write (.reconcile (target_isolated hw) h) rfl (by simp)
      (live_job_new rfl (by rw [hw]) rfl)
  | settle hw hc =>
    exact .commit (live_work hw rfl) hc (live_keep rfl (.inr rfl) (.inl rfl))
  | settleIsolated hw hc =>
    exact .commit (live_work hw rfl) hc (live_keep rfl (.inr rfl) (.inl (ofCron_tx _)))
  | endRun => exact hquiet rfl (live_keep rfl (.inr rfl) (.inl rfl))
  | endIsolated => exact hquiet rfl (live_keep rfl (.inr rfl) (.inl (ofCron_tx _)))
  | ticket hc => exact .ticket hc (hsame rfl)

end ArcaEdi
