import ArcaEdi.Effects

/-!
# What a worker is in the middle of

How one step changes one worker's job, the locks that jobs hold, and the attempt
that each run owns.
-/

namespace ArcaEdi

open Snapshot

/-- The attempts that the cron still has to come to. -/
def Job.queue : Job → List Nat
  | .cron queue | .isolated queue _ _ _ => queue
  | .idle | .buttons _ | .request _ _ _ => []

/-- The attempts that a button still has to come to. -/
def Job.pressed : Job → List Nat
  | .buttons queue => queue
  | .idle | .cron _ | .isolated _ _ _ _ | .request _ _ _ => []

variable {W : Type} [DecidableEq W] {P : Platform} {s s' : Sys W} {a : Act W} {w w' : W}

/-- What a step makes of the job of its worker. -/
inductive JobStep (P : Platform) (s s' : Sys W) (w : W) : Act W → Job → Job → Prop
  | idle {a : Act W} {j : Job} : JobStep P s s' w a j .idle
  | buttons {a : Act W} {j : Job} {queue : List Nat}
      (hq : ∀ i ∈ queue, i ∈ j.pressed ∨ i ∈ s.pressed a) : JobStep P s s' w a j (.buttons queue)
  | search {a : Act W} {j : Job} {t : DbTx} {limit : Nat} (ht : (s.worker w).session = some t) :
      JobStep P s s' w a j (.cron (cronSearch s.clock t.view s.nextAttempt limit))
  | next {a : Act W} {j : Job} {queue : List Nat} (hq : ∀ i ∈ queue, i ∈ j.queue) :
      JobStep P s s' w a j (.cron queue)
  | request {t : DbTx} {m key : Nat} (ht : (s'.worker w).session = some t)
      (hk : Sys.requestKey P t.view m = .ok key) (hl : s.locks key = none) :
      JobStep P s s' w (.request w m) .idle (.request m key .locked)
  | enter {m key : Nat} {c : Intent} (h : authorizeStart s.clock s.db.row m = .ok c) :
      JobStep P s s' w (.enter w) (.request m key .locked) (.request m key (.asking (Tx.start s.db) c))
  | create {reply : SoapReply UltimoAutorizado} {m key last : Nat} {t t' : DbTx} {c : Intent}
      {r : Request} (h : authorizeCreate P s.clock t m s.nextAttempt c last = .ok (t', r)) :
      JobStep P s s' w (.lastAuthorized w reply) (.request m key (.asking t c))
        (.request m key (.prepared t' s.nextAttempt r))
  | checkpoint {m key i : Nat} {t : DbTx} {r : Request} (hc : s.commitTx t = some s'.db) :
      JobStep P s s' w (.checkpoint w) (.request m key (.prepared t i r))
        (.request m key (.recorded i r))
  | resume {m key i : Nat} {r : Request} :
      JobStep P s s' w (.resume w) (.request m key (.recorded i r))
        (.request m key (.sending (Tx.start s.db) i r))
  | outcome {a : Act W} {m key i durationMs : Nat} {t t' : DbTx} {r : Request} {stage : Stage}
      {result : Except Exn CaeResult} (hf : Finishes s w t i r a stage result)
      (h : authorizeOutcome s.clock durationMs t m i result = .ok t') :
      JobStep P s s' w a (.request m key stage) (.request m key (.answered t' i r))
  | transmit {m key i : Nat} {t : DbTx} {r : Request} :
      JobStep P s s' w (.transmit w) (.request m key (.sending t i r))
        (.request m key (.awaiting t i r))
  | isolate {queue : List Nat} {i : Nat} {t : DbTx} {b : Attempt}
      (ht : (s.worker w).session = some t) (hb : t.view (.attempt i) = some b)
      (hl : s.locks (P.lockKey b.seq) = none) :
      JobStep P s s' w (.isolate w) (.cron (i :: queue))
        (.isolated queue i (P.lockKey b.seq) .locked)
  | enterIsolated {queue : List Nat} {i key : Nat} :
      JobStep P s s' w (.enter w) (.isolated queue i key .locked)
        (.isolated queue i key (.working (Tx.start s.db)))
  | settled {a : Act W} {queue : List Nat} {i key : Nat} {t t' : DbTx}
      (h : t' = t ∨ ∃ reply, a = .consult w reply ∧ s.reconcile t i reply = some (.ok t')) :
      JobStep P s s' w a (.isolated queue i key (.working t)) (.isolated queue i key (.settled t'))

omit [DecidableEq W] in
theorem JobStep.ofButtons {j : Job} {queue : List Nat}
    (hq : ∀ i ∈ queue, i ∈ j.pressed ∨ i ∈ s.pressed a) : JobStep P s s' w a j (.ofButtons queue) := by
  cases queue
  · exact .idle
  · exact .buttons hq

omit [DecidableEq W] in
theorem JobStep.ofCron {j : Job} {queue : List Nat} (h : JobStep P s s' w a j (.cron queue)) :
    JobStep P s s' w a j (.ofCron queue) := by
  cases queue
  · exact .idle
  · exact h

theorem job_update {v : Worker} (hs : s'.worker = Function.update s.worker w v)
    (ha : a.worker? = some w) (hv : JobStep P s s' w a (s.worker w).job v.job) (w' : W) :
    a.worker? ≠ some w' ∧ (s'.worker w').job = (s.worker w').job ∨
      a.worker? = some w' ∧ JobStep P s s' w' a (s.worker w').job (s'.worker w').job := by
  rw [hs]
  by_cases hww : w' = w
  · subst hww
    rw [Function.update_self]
    exact .inr ⟨ha, hv⟩
  · rw [Function.update_of_ne hww, ha]
    exact .inl ⟨fun h => hww (Option.some.inj h).symm, rfl⟩

/-- The worker that takes the step does something to its job, and no other does. -/
theorem job_step (h : Step P s a s') (w : W) :
    a.worker? ≠ some w ∧ (s'.worker w).job = (s.worker w).job ∨
      a.worker? = some w ∧ JobStep P s s' w a (s.worker w).job (s'.worker w).job := by
  cases h with
  | tick | ticket | record | refuse | elsewhere => exact .inl ⟨nofun, rfl⟩
  | start | user | commit | settle | kill => exact job_update rfl rfl .idle w
  | close hw ha | endRun hw ha | dropButtons hw ha | dropCron hw ha =>
    exact job_update rfl ha .idle w
  | request hw hk hl =>
    refine job_update rfl rfl ?_ w
    rw [hw]
    exact .request (by rw [Sys.setWorker_worker, Function.update_self]) hk hl
  | enter hw h => exact job_update rfl rfl (by rw [hw]; exact .enter h) w
  | create hw h => exact job_update rfl rfl (by rw [hw]; exact .create h) w
  | checkpoint hw hc => exact job_update rfl rfl (by rw [hw]; exact .checkpoint hc) w
  | resume hw => exact job_update rfl rfl (by rw [hw]; exact .resume) w
  | outcome hw hf h => exact job_update rfl (by cases hf <;> rfl) (by rw [hw]; exact .outcome hf h) w
  | transmit hw ha => exact job_update rfl rfl (by rw [hw]; exact .transmit) w
  | buttons hw hq ha =>
    exact job_update rfl ha (.ofButtons fun i hi => .inr (by rw [hq]; exact hi)) w
  | search hw => exact job_update rfl rfl (.ofCron (.search (congrArg Worker.session hw))) w
  | isolate hw ha hl =>
    exact job_update rfl rfl (by rw [hw]; exact .isolate (congrArg Worker.session hw) ha hl) w
  | next hw ha =>
    exact job_update rfl ha (by rw [hw]; exact .ofCron (.next fun i hi => List.mem_cons_of_mem _ hi)) w
  | enterIsolated hw => exact job_update rfl rfl (by rw [hw]; exact .enterIsolated) w
  | consult hw h =>
    exact job_update rfl rfl
      (by rw [hw]; exact .ofButtons fun i hi => .inl (List.mem_cons_of_mem _ hi)) w
  | consultIsolated hw h =>
    exact job_update rfl rfl (by rw [hw]; exact .settled (.inr ⟨_, rfl, h⟩)) w
  | skip hw ha =>
    exact job_update rfl ha
      (by rw [hw]; exact .ofButtons fun i hi => .inl (List.mem_cons_of_mem _ hi)) w
  | skipIsolated hw ha => exact job_update rfl ha (by rw [hw]; exact .settled (.inl rfl)) w
  | settleIsolated hw hc =>
    exact job_update rfl rfl (by rw [hw]; exact .ofCron (.next fun i hi => hi)) w
  | endIsolated hw ha =>
    exact job_update rfl ha (by rw [hw]; exact .ofCron (.next fun i hi => hi)) w

/-! ## Sessions -/

theorem step_worker (h : Step P s a s') (ha : a.worker? ≠ some w) : s'.worker w = s.worker w := by
  have hother : ∀ {w' : W} {v : Worker}, a.worker? = some w' →
      Function.update s.worker w' v w = s.worker w := by
    intro w' v hw'
    refine Function.update_of_ne ?_ ..
    rintro rfl
    exact ha hw'
  cases h with
  | tick | ticket | record | refuse | elsewhere => rfl
  | outcome hw hf h => exact hother (by cases hf <;> rfl)
  | buttons hw hq ha' => exact hother ha'
  | close hw ha' | next hw ha' | skip hw ha' | skipIsolated hw ha' | endRun hw ha'
  | endIsolated hw ha' | dropButtons hw ha' | dropCron hw ha' => exact hother ha'
  | _ => exact hother rfl

inductive SessionStep (s : Sys W) (w : W) : Act W → DbTx → Prop
  | same {a : Act W} {t : DbTx} (h : (s.worker w).session = some t) : SessionStep s w a t
  | start (hw : s.worker w = ⟨none, .idle⟩) : SessionStep s w (.start w) (Tx.start s.db)
  | user {t u : DbTx} {op : UserOp} (hw : s.worker w = ⟨some u, .idle⟩)
      (h : op.run s.clock u = .ok t) : SessionStep s w (.user w op) t
  | reconcile {t u : DbTx} {i : Nat} {queue : List Nat} {reply : SoapReply (Option ConsultResponse)}
      (hw : s.worker w = ⟨some u, .buttons (i :: queue)⟩)
      (h : s.reconcile u i reply = some (.ok t)) : SessionStep s w (.consult w reply) t

theorem session_update {v : Worker} (hs : s'.worker = Function.update s.worker w v)
    (hv : ∀ t, v.session = some t → SessionStep s w a t) {t : DbTx}
    (ht : (s'.worker w').session = some t) : SessionStep s w' a t := by
  rw [hs] at ht
  by_cases hww : w' = w
  · subst hww
    rw [Function.update_self] at ht
    exact hv t ht
  · rw [Function.update_of_ne hww] at ht
    exact .same ht

theorem session_step {t : DbTx} (h : Step P s a s') (ht : (s'.worker w).session = some t) :
    SessionStep s w a t := by
  have hkeep : ∀ {w' : W} {v : Worker}, v.session = (s.worker w').session →
      ∀ t, v.session = some t → SessionStep s w' a t := fun hv t ht => .same (hv ▸ ht)
  have hnone : ∀ {w' : W} {v : Worker}, v.session = none →
      ∀ t, v.session = some t → SessionStep s w' a t := by
    intro w' v hv t ht
    rw [hv] at ht
    cases ht
  have hend : ∀ {w' : W} {job : Job},
      s'.worker = Function.update s.worker w' ⟨(s.worker w').session, job⟩ → SessionStep s w a t :=
    fun hs => session_update hs (fun _ h => .same h) ht
  cases h with
  | start hw =>
    refine session_update rfl ?_ ht
    rintro _ ⟨⟩
    exact .start hw
  | user hw h =>
    refine session_update rfl ?_ ht
    rintro _ ⟨⟩
    exact .user hw h
  | consult hw h =>
    refine session_update rfl ?_ ht
    rintro _ ⟨⟩
    exact .reconcile hw h
  | close | commit | dropButtons | kill => exact session_update rfl (hnone rfl) ht
  | request hw | enter hw | create hw | checkpoint hw | resume hw | outcome hw | transmit hw
  | buttons hw | search hw | isolate hw | next hw | enterIsolated hw | consultIsolated hw | skip hw
  | skipIsolated hw | dropCron hw => exact session_update rfl (hkeep (by rw [hw])) ht
  | settle | settleIsolated | endRun | endIsolated => exact hend rfl
  | tick | ticket | record | refuse | elsewhere => exact .same ht

/-! ## Commits -/

/-- The transaction that a step commits. -/
inductive Commits (s : Sys W) : Act W → DbTx → Prop
  | session {w : W} {t : DbTx} (hw : s.worker w = ⟨some t, .idle⟩) : Commits s (.commit w) t
  | checkpoint {w : W} {se : Option DbTx} {m key i : Nat} {t : DbTx} {r : Request}
      (hw : s.worker w = ⟨se, .request m key (.prepared t i r)⟩) : Commits s (.checkpoint w) t
  | settle {w : W} {se : Option DbTx} {m key i : Nat} {t : DbTx} {r : Request}
      (hw : s.worker w = ⟨se, .request m key (.answered t i r)⟩) : Commits s (.settle w) t
  | isolated {w : W} {se : Option DbTx} {queue : List Nat} {i key : Nat} {t : DbTx}
      (hw : s.worker w = ⟨se, .isolated queue i key (.settled t)⟩) : Commits s (.settle w) t
  | ticket {k : Nat} {new : Ticket} : Commits s (.ticket k new) (ticketTx s.db k new)

theorem step_commits (h : Step P s a s') :
    s'.db = s.db ∨ ∃ t, Commits s a t ∧ s.commitTx t = some s'.db := by
  cases h with
  | commit hw hc => exact .inr ⟨_, .session hw, hc⟩
  | checkpoint hw hc => exact .inr ⟨_, .checkpoint hw, hc⟩
  | settle hw hc => exact .inr ⟨_, .settle hw, hc⟩
  | settleIsolated hw hc => exact .inr ⟨_, .isolated hw, hc⟩
  | ticket hc => exact .inr ⟨_, .ticket, hc⟩
  | _ => exact .inl rfl

end ArcaEdi
