import ArcaEdi.Steps

/-!
# The caller's session

A request works on transactions of its own. Whatever its caller has pending, the
same steps are open to the system, and they end in the same place.
-/

namespace ArcaEdi

variable {W : Type} [DecidableEq W]

/-- The same state, had the caller other writes pending. -/
def Sys.withSession (s : Sys W) (w : W) (t : DbTx) : Sys W :=
  s.setWorker w ⟨some t, (s.worker w).job⟩

section Fields

variable (s : Sys W) (w : W) (t u : DbTx)

@[simp] theorem withSession_db : (s.withSession w t).db = s.db := rfl
@[simp] theorem withSession_nextAttempt : (s.withSession w t).nextAttempt = s.nextAttempt := rfl
@[simp] theorem withSession_clock : (s.withSession w t).clock = s.clock := rfl
@[simp] theorem withSession_arca : (s.withSession w t).arca = s.arca := rfl
@[simp] theorem withSession_commitTx : (s.withSession w t).commitTx u = s.commitTx u := rfl
@[simp] theorem withSession_reconcile (i : Nat) (reply : SoapReply (Option ConsultResponse)) :
    (s.withSession w t).reconcile u i reply = s.reconcile u i reply := rfl

end Fields

variable {P : Platform} {s s' : Sys W} {a : Act W} {w w' : W} {t t' : DbTx}

theorem withSession_worker : (s.withSession w t).worker w = ⟨some t, (s.worker w).job⟩ :=
  Function.update_self ..

theorem withSession_worker_ne (hne : w' ≠ w) : (s.withSession w t).worker w' = s.worker w' :=
  Function.update_of_ne hne ..

theorem withSession_eq_self (h : (s.worker w).session = some t) : s.withSession w t = s := by
  rw [Sys.withSession, Sys.setWorker, ← h, Function.update_eq_self]

theorem endRun_eq (s : Sys W) (w : W) (job : Job) :
    s.endRun w job = (s.release w).setWorker w ⟨(s.worker w).session, job⟩ := rfl

/-! ## One step -/

theorem setWorker_withSession_ne {u u' : Sys W} {v : Worker} (hne : w' ≠ w)
    (hu : u.worker = Function.update s.worker w' v)
    (hu' : u' = { u with worker := Function.update (s.withSession w t').worker w' v }) :
    some u' = (some u).map (·.withSession w t') := by
  rw [hu', Option.map_some, Sys.withSession, Sys.withSession, Sys.setWorker, Sys.setWorker, hu,
    Function.update_comm hne, Function.update_of_ne hne.symm]

theorem setWorker_withSession {u u' : Sys W} {job : Job}
    (hu : u.worker = Function.update s.worker w ⟨some t, job⟩)
    (hu' : u' = { u with worker := Function.update (s.withSession w t').worker w ⟨some t', job⟩ }) :
    some u' = (some u).map (·.withSession w t') := by
  rw [hu', Option.map_some, Sys.withSession, Sys.withSession, Sys.setWorker, Sys.setWorker, hu,
    Function.update_idem, Function.update_idem, Function.update_self]

theorem step_withSession_ne (ha : a.worker? = some w') (hne : w' ≠ w) :
    step P (s.withSession w t') a = (step P s a).map (·.withSession w t') := by
  have hw := withSession_worker_ne (s := s) (t := t') hne
  cases a <;> cases ha <;>
    simp only [step, Sys.start, Sys.user, Sys.commit, Sys.rollback, Sys.request, Sys.enter,
      Sys.lastAuthorized, Sys.checkpoint, Sys.resume, Sys.sendFails, Sys.transmit, Sys.answer,
      Sys.reconcileMove, Sys.reconcileAttempts, Sys.search, Sys.isolate, Sys.consult, Sys.skip,
      Sys.settle, Sys.abort, endRun_eq, hw, withSession_db, withSession_nextAttempt,
      withSession_clock, withSession_arca, withSession_commitTx, withSession_reconcile]
  case request =>
    split
    · split
      · rw [apply_ite (Option.map _)]
        exact if_congr Iff.rfl (setWorker_withSession_ne hne rfl rfl) rfl
      · rfl
    · rfl
  case isolate =>
    split
    · split
      · rw [apply_ite (Option.map _)]
        exact if_congr Iff.rfl (setWorker_withSession_ne hne rfl rfl)
          (setWorker_withSession_ne hne rfl rfl)
      · exact setWorker_withSession_ne hne rfl rfl
    · rfl
  -- Both sides split alike: each branch sets the worker, or is refused.
  all_goals repeat' split
  all_goals first | rfl | exact setWorker_withSession_ne hne rfl rfl

theorem step_withSession_none (ha : a.worker? = none) :
    step P (s.withSession w t') a = (step P s a).map (·.withSession w t') := by
  cases a with
  | tick => rfl
  | ticket k new =>
    simp only [step, Sys.ticket, withSession_db, withSession_commitTx]
    rw [apply_ite (Option.map _), Option.map_map]
    rfl
  | record n cae =>
    rw [step, step, Option.map_map]
    rfl
  | refuse n =>
    rw [step, step, Option.map_map]
    rfl
  | elsewhere c cae =>
    rw [step, step, Option.map_map]
    rfl
  | _ => cases ha

theorem step_withSession_self {m key : Nat} {stage : Stage}
    (hw : s.worker w = ⟨some t, .request m key stage⟩) (ha : a.worker? = some w)
    (hk : a ≠ .kill w) :
    step P (s.withSession w t') a = (step P s a).map (·.withSession w t') := by
  have hw' : (s.withSession w t').worker w = ⟨some t', .request m key stage⟩ := by
    rw [withSession_worker, hw]
  cases a <;> cases ha
  case kill => exact absurd rfl hk
  all_goals
    cases stage <;>
    simp only [step, Sys.start, Sys.user, Sys.commit, Sys.rollback, Sys.request, Sys.enter,
      Sys.lastAuthorized, Sys.checkpoint, Sys.resume, Sys.sendFails, Sys.transmit, Sys.answer,
      Sys.reconcileMove, Sys.reconcileAttempts, Sys.search, Sys.isolate, Sys.consult, Sys.skip,
      Sys.settle, Sys.abort, endRun_eq, hw, hw', withSession_db, withSession_nextAttempt,
      withSession_clock, withSession_arca, withSession_commitTx, Option.map_none]
  all_goals repeat' split
  all_goals first | rfl | exact setWorker_withSession rfl rfl

theorem step_withSession {m key : Nat} {stage : Stage}
    (hw : s.worker w = ⟨some t, .request m key stage⟩) (hk : a ≠ .kill w) :
    step P (s.withSession w t') a = (step P s a).map (·.withSession w t') := by
  cases ha : a.worker? with
  | none => exact step_withSession_none ha
  | some w' =>
    by_cases hne : w' = w
    · subst hne
      exact step_withSession_self hw ha hk
    · exact step_withSession_ne ha hne

theorem session_kept {m key : Nat} {stage : Stage}
    (hw : s.worker w = ⟨some t, .request m key stage⟩) (hk : a ≠ .kill w)
    (h : step P s a = some s') : (s'.worker w).session = some t := by
  have hself : s.withSession w t = s := withSession_eq_self (congrArg Worker.session hw)
  have hstep : step P (s.withSession w t) a = _ := step_withSession hw hk
  rw [hself, h, Option.map_some, Option.some.injEq] at hstep
  rw [hstep, withSession_worker]

end ArcaEdi
