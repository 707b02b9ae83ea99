import ArcaEdi.FiscalTransaction
import ArcaEdi.Recovery

/-!
# The system works in fiscal transactions

A run of a request and an isolated reconciliation each stand in one run of
`fiscal_transaction`, from the lock to the end. What they commit to the log of attempts
they commit there, and a run that breaks off leaves what its checkpoint committed.
-/

namespace ArcaEdi

open Snapshot Runs

/-! ## The context manager -/

namespace Fiscal

variable {S α : Type} [DecidableEq S] {s : Server S α} {x : S} {f : Scope α}

theorem inBody_eq {f' : Scope α → Scope α} {news : Scope α → List α} (hx : s.scopes x = [f])
    (hf : f.phase = .body) : s.inBody x f' news = some (s.work x f (f' f) [] (news f)) := by
  simp only [Server.inBody, hx, hf, if_pos]

theorem leads_enter {key : Nat} (hx : s.scopes x = []) (hl : s.locks key = none) :
    ∃ s', Leads system Always s s' ∧ s'.durable = s.durable ∧
      s'.scopes = Function.update s.scopes x [{ id := s.nextId, lockKey := key }] := by
  let entered : Server S α := { s with
    locks := Function.update s.locks key (some s.nextId)
    nextId := s.nextId + 1
    scopes := Function.update s.scopes x [{ id := s.nextId, lockKey := key }] }
  have hstep : system.step s (.enter x key) = some entered := by
    simp only [system, step, Server.enter, hx, List.head?_nil, Option.all_none, if_pos, hl, entered]
  exact ⟨entered, .step .refl trivial hstep, rfl, rfl⟩

theorem leads_write (a : α) (hx : s.scopes x = [f]) (hf : f.phase = .body) :
    ∃ s', Leads system Always s s' ∧ s'.durable = s.durable ∧
      s'.scopes = Function.update s.scopes x [f.write a] :=
  ⟨s.work x f (f.write a) [] [], .step (a := .write x a) .refl trivial (inBody_eq hx hf),
    List.append_nil _, rfl⟩

theorem leads_checkpoint (hx : s.scopes x = [f]) (hf : f.phase = .body) :
    ∃ s', Leads system Always s s' ∧ s'.durable = s.durable ++ f.pending.map (f.id, ·) ∧
      s'.scopes = Function.update s.scopes x [f.checkpoint] :=
  ⟨s.work x f f.checkpoint [] f.pending,
    .step (a := .checkpoint x) .refl trivial (inBody_eq hx hf), rfl, rfl⟩

theorem leads_exit (exit : Exit) (hx : s.scopes x = [f]) (hf : f.phase = .body) :
    ∃ s', Leads system Always s s' ∧ s'.durable = s.durable ++ (f.atClose exit).map (f.id, ·) ∧
      s'.scopes = Function.update s.scopes x [] := by
  let left : Scope α := { f with phase := .left exit }
  let worked : Scope α := { left with phase := .worked exit, pending := [] }
  let s₁ := s.work x f left [] []
  let s₂ := s₁.work x left worked [] (f.atClose exit)
  have hleave : system.step s (.leave x exit) = some s₁ := inBody_eq hx hf
  have hclose : system.step s₁ (.closeWork x) = some s₂ := by
    simp only [system, step, Server.closeWork, s₁, Server.work, Function.update_self]
    rfl
  have hend : (system.step s₂ (.closeLock x)).isSome := by
    simp only [system, step, Server.closeLock, s₂, Server.work, Function.update_self]
    rfl
  obtain ⟨s₃, h₃⟩ := Option.isSome_iff_exists.mp hend
  refine ⟨s₃, ((Leads.refl.step trivial hleave).step trivial hclose).step trivial h₃, ?_, ?_⟩ <;>
    simp only [system, step, Server.closeLock, s₂, s₁, Server.work, Function.update_self, worked] at h₃ <;>
    cases h₃
  · simp only [List.map_nil, List.append_nil]
    rfl
  · simp only [Function.update_idem]

end Fiscal

/-! ## What a job is in -/

/-- The transaction on which the run has written its attempt. -/
def Job.written? : Job → Option (DbTx × Nat)
  | .request _ _ (.prepared t i _) | .request _ _ (.answered t i _) => some (t, i)
  | .isolated _ i _ (.settled t) => some (t, i)
  | _ => none

/-- An entry of the log of attempts. -/
abbrev Entry := Nat × Attempt

/-- The context manager, each worker with its session. -/
abbrev Cursors (W : Type) := Fiscal.Server W Entry

/-- What a run has written since its last commit: nothing, or its attempt. -/
inductive Pending : Option (DbTx × Nat) → List Entry → Prop
  | unwritten : Pending none []
  | same {t : DbTx} {i : Nat} (h : t.view (.attempt i) = t.snap.row (.attempt i)) :
      Pending (some (t, i)) []
  | wrote {t : DbTx} {i : Nat} {b : Attempt} (h : t.view (.attempt i) = some b) :
      Pending (some (t, i)) [(i, b)]

/-- The runs of the context manager that a job is in: one where it holds a lock. -/
inductive Job.In (job : Job) : List (Fiscal.Scope Entry) → Prop
  | outside (h : job.key? = none) : job.In []
  | inside {f : Fiscal.Scope Entry} (hkey : job.key? = some f.lockKey) (hphase : f.phase = .body)
      (hpending : Pending job.written? f.pending) : job.In [f]

section Jobs

variable {job job' : Job} {l : List (Fiscal.Scope Entry)}

theorem in_outside (h : job.In l) (hkey : job.key? = none) : l = [] := by
  cases h with
  | outside => rfl
  | inside hsome =>
    rw [hkey] at hsome
    cases hsome

theorem in_inside {key : Nat} (h : job.In l) (hkey : job.key? = some key) :
    ∃ f, l = [f] ∧ f.lockKey = key ∧ f.phase = .body ∧ Pending job.written? f.pending := by
  cases h with
  | outside hnone =>
    rw [hkey] at hnone
    cases hnone
  | inside hsome hphase hpending =>
    exact ⟨_, rfl, Option.some.inj (hsome.symm.trans hkey), hphase, hpending⟩

theorem in_holds {f : Fiscal.Scope Entry} (h : job.In l) (hf : f ∈ l) : job.key? = some f.lockKey := by
  cases h with
  | outside => cases hf
  | inside hsome =>
    rw [List.mem_singleton.mp hf]
    exact hsome

theorem in_same (h : job.In l) (hkey : job'.key? = job.key?) (hwritten : job'.written? = job.written?) :
    job'.In l := by
  cases h with
  | outside hnone => exact .outside (hkey.trans hnone)
  | inside hsome hphase hpending => exact .inside (hkey.trans hsome) hphase (hwritten ▸ hpending)

theorem pending_unwritten {l : List Entry} (h : Pending none l) : l = [] := by
  cases h
  rfl

end Jobs

/-! ## The log of attempts -/

variable {W : Type} {P : Platform} {s s' t : Sys W} {a : Act W} {w : W} {f f' : Cursors W}

/-- What the context manager committed is on record, and nothing else is. What a row says of
its request stays, its outcome may change. -/
structure OnRecord (db : Db) (durable : List (Nat × Entry)) : Prop where
  kept : ∀ p ∈ durable, ∃ b : Attempt, db.row (.attempt p.2.1) = some b ∧
    b.toEvidence = p.2.2.toEvidence
  committed : ∀ i (b : Attempt), db.row (.attempt i) = some b →
    ∃ p ∈ durable, p.2.1 = i ∧ p.2.2.toEvidence = b.toEvidence

section Log

variable {durable : List (Nat × Entry)}

theorem onRecord_side {tx : DbTx} (h : OnRecord s.db durable)
    (ht : Isolated s.db s.nextAttempt tx) (hside : Side tx) (hc : s.commitTx tx = some s'.db)
    (hl : Later s.db.row s'.db.row) : OnRecord s'.db durable := by
  have hback : ∀ i (b : Attempt), s'.db.row (.attempt i) = some b →
      ∃ c : Attempt, s.db.row (.attempt i) = some c ∧ c.toEvidence = b.toEvidence := by
    intro i b hb
    rcases commit_row ht hc (.attempt i) with hrow | ⟨-, hview⟩
    · exact ⟨b, hrow.symm.trans hb, rfl⟩
    · exact side_evidence hside ht (hview.symm.trans hb)
  refine ⟨fun p hp => ?_, fun i b hb => ?_⟩
  · obtain ⟨b, hb, hev⟩ := h.kept p hp
    obtain ⟨c, hc, hev', -⟩ := hl p.2.1 b hb
    exact ⟨c, hc, hev'.trans hev⟩
  · obtain ⟨c, hc, hev⟩ := hback i b hb
    obtain ⟨p, hp, hi, hpc⟩ := h.committed i c hc
    exact ⟨p, hp, hi, hpc.trans hev⟩

theorem onRecord_commit {tx : DbTx} {i id : Nat} {l : List Entry} (h : OnRecord s.db durable)
    (ht : Isolated s.db s.nextAttempt tx) (honly : Only tx i) (hp : Pending (some (tx, i)) l)
    (hc : s.commitTx tx = some s'.db) (hl : Later s.db.row s'.db.row) :
    OnRecord s'.db (durable ++ l.map (id, ·)) := by
  have hold : ∀ j (b : Attempt), s.db.row (.attempt j) = some b →
      ∃ p ∈ durable ++ l.map (id, ·), p.2.1 = j ∧ p.2.2.toEvidence = b.toEvidence := by
    intro j b hb
    obtain ⟨p, hp, hj, hev⟩ := h.committed j b hb
    exact ⟨p, List.mem_append_left _ hp, hj, hev⟩
  refine ⟨fun p hmem => ?_, fun j b hb => ?_⟩
  · rcases List.mem_append.mp hmem with hmem | hmem
    · obtain ⟨b, hb, hev⟩ := h.kept p hmem
      obtain ⟨c, hc, hev', -⟩ := hl p.2.1 b hb
      exact ⟨c, hc, hev'.trans hev⟩
    · cases hp with
      | same => cases hmem
      | wrote hview =>
        obtain rfl := List.mem_singleton.mp hmem
        exact commit_attempt ht hc hview
  · rcases commit_row ht hc (.attempt j) with hrow | ⟨hsnap, hview⟩
    · exact hold j b (hrow.symm.trans hb)
    · have hunwritten : tx.view (.attempt j) = tx.snap.row (.attempt j) →
          ∃ p ∈ durable ++ l.map (id, ·), p.2.1 = j ∧ p.2.2.toEvidence = b.toEvidence :=
        fun hsame => hold j b (hsnap.trans (hsame.symm.trans (hview.symm.trans hb)))
      by_cases hj : j = i
      · subst hj
        cases hp with
        | same hsame => exact hunwritten hsame
        | @wrote _ _ c hwritten =>
          obtain rfl : c = b := Option.some.inj (hwritten.symm.trans (hview.symm.trans hb))
          exact ⟨(id, j, c), List.mem_append_right _ (List.mem_singleton.mpr rfl), rfl, rfl⟩
      · exact hunwritten (honly (.attempt j) (by simpa using hj) (by simp))

end Log

/-! ## One step -/

/-- Every job stands in the runs of the context manager that it should stand in, and what
they committed is the log of attempts. -/
structure Brackets (s : Sys W) (f : Cursors W) : Prop where
  jobs : ∀ w, (s.worker w).job.In (f.scopes w)
  record : OnRecord s.db f.durable

variable [DecidableEq W]

theorem brackets_update {v : Worker} {l : List (Fiscal.Scope Entry)} (hb : Brackets s f)
    (hs : s'.worker = Function.update s.worker w v) (hf : f'.scopes = Function.update f.scopes w l)
    (hin : v.job.In l) (hrecord : OnRecord s'.db f'.durable) : Brackets s' f' := by
  refine ⟨fun w' => ?_, hrecord⟩
  rw [hs, hf]
  by_cases hww : w' = w
  · subst hww
    rwa [Function.update_self, Function.update_self]
  · rw [Function.update_of_ne hww, Function.update_of_ne hww]
    exact hb.jobs w'

theorem brackets_still {v : Worker} (hb : Brackets s f)
    (hs : s'.worker = Function.update s.worker w v) (hin : v.job.In (f.scopes w))
    (hrecord : OnRecord s'.db f.durable) :
    ∃ f', Leads Fiscal.system Always f f' ∧ Brackets s' f' :=
  ⟨f, .refl, brackets_update hb hs (Function.update_eq_self w f.scopes).symm hin hrecord⟩

theorem brackets_outside {v : Worker} (hb : Brackets s f)
    (hs : s'.worker = Function.update s.worker w v) (hold : (s.worker w).job.key? = none)
    (hnew : v.job.key? = none) (hrecord : OnRecord s'.db f.durable) :
    ∃ f', Leads Fiscal.system Always f f' ∧ Brackets s' f' := by
  refine brackets_still hb hs ?_ hrecord
  rw [in_outside (hb.jobs w) hold]
  exact .outside hnew

omit [DecidableEq W] in
theorem brackets_free {key : Nat} (hb : Brackets s f) (hi : Fiscal.Inv f) (hL : Locked s)
    (h : s.locks key = none) : f.locks key = none := by
  cases hlock : f.locks key with
  | none => rfl
  | some id =>
    obtain ⟨w, g, hg, -, hgkey⟩ := hi.owned key id hlock
    have hjob : (s.worker w).job.key? = some key := hgkey ▸ in_holds (hb.jobs w) hg
    rw [hL w key hjob] at h
    cases h

theorem brackets_enter {v : Worker} {key : Nat} (hb : Brackets s f) (hi : Fiscal.Inv f)
    (hL : Locked s) (hs : s'.worker = Function.update s.worker w v) (hdb : s'.db = s.db)
    (hold : (s.worker w).job.key? = none) (hl : s.locks key = none) (hnew : v.job.key? = some key)
    (hwritten : v.job.written? = none) :
    ∃ f', Leads Fiscal.system Always f f' ∧ Brackets s' f' := by
  obtain ⟨f', hlead, hdurable, hscopes⟩ :=
    Fiscal.leads_enter (in_outside (hb.jobs w) hold) (brackets_free hb hi hL hl)
  refine ⟨f', hlead, brackets_update hb hs hscopes (.inside hnew rfl ?_) ?_⟩
  · rw [hwritten]
    exact .unwritten
  · rw [hdb, hdurable]
    exact hb.record

theorem brackets_write {v : Worker} {key i : Nat} {tx : DbTx} {b : Attempt} (hb : Brackets s f)
    (hs : s'.worker = Function.update s.worker w v) (hdb : s'.db = s.db)
    (hold : (s.worker w).job.key? = some key) (hnone : (s.worker w).job.written? = none)
    (hnew : v.job.key? = some key) (hwritten : v.job.written? = some (tx, i))
    (hview : tx.view (.attempt i) = some b) :
    ∃ f', Leads Fiscal.system Always f f' ∧ Brackets s' f' := by
  obtain ⟨g, hg, hkey, hphase, hpending⟩ := in_inside (hb.jobs w) hold
  rw [hnone] at hpending
  have hempty := pending_unwritten hpending
  obtain ⟨f', hlead, hdurable, hscopes⟩ := Fiscal.leads_write (i, b) hg hphase
  refine ⟨f', hlead, brackets_update hb hs hscopes ?_ ?_⟩
  · refine .inside (by rw [hnew, ← hkey]; rfl) hphase ?_
    rw [hwritten, Fiscal.Scope.write, hempty, List.nil_append]
    exact .wrote hview
  · rw [hdb, hdurable]
    exact hb.record

theorem brackets_commit {v : Worker} {g : Fiscal.Scope Entry} {l : List (Fiscal.Scope Entry)}
    {i : Nat} {tx : DbTx} (hb : Brackets s f) (ht : Isolated s.db s.nextAttempt tx)
    (honly : Only tx i) (hl : Later s.db.row s'.db.row)
    (hs : s'.worker = Function.update s.worker w v) (hc : s.commitTx tx = some s'.db)
    (hpending : Pending (some (tx, i)) g.pending) (hin : v.job.In l)
    (hlead : ∃ f', Leads Fiscal.system Always f f' ∧
      f'.durable = f.durable ++ g.pending.map (g.id, ·) ∧ f'.scopes = Function.update f.scopes w l) :
    ∃ f', Leads Fiscal.system Always f f' ∧ Brackets s' f' := by
  obtain ⟨f', hlead, hdurable, hscopes⟩ := hlead
  refine ⟨f', hlead, brackets_update hb hs hscopes hin ?_⟩
  rw [hdurable]
  exact onRecord_commit hb.record ht honly hpending hc hl

theorem brackets_checkpoint {v : Worker} {key i : Nat} {tx : DbTx} (hb : Brackets s f)
    (ht : Isolated s.db s.nextAttempt tx) (honly : Only tx i)
    (hl : Later s.db.row s'.db.row) (hs : s'.worker = Function.update s.worker w v)
    (hc : s.commitTx tx = some s'.db) (hold : (s.worker w).job.key? = some key)
    (hwrote : (s.worker w).job.written? = some (tx, i)) (hnew : v.job.key? = some key)
    (hwritten : v.job.written? = none) :
    ∃ f', Leads Fiscal.system Always f f' ∧ Brackets s' f' := by
  obtain ⟨g, hg, hkey, hphase, hpending⟩ := in_inside (hb.jobs w) hold
  rw [hwrote] at hpending
  refine brackets_commit hb ht honly hl hs hc hpending ?_ (Fiscal.leads_checkpoint hg hphase)
  refine .inside (by rw [hnew, ← hkey]; rfl) hphase ?_
  rw [hwritten]
  exact .unwritten

theorem brackets_return {v : Worker} {key i : Nat} {tx : DbTx} (hb : Brackets s f)
    (ht : Isolated s.db s.nextAttempt tx) (honly : Only tx i)
    (hl : Later s.db.row s'.db.row) (hs : s'.worker = Function.update s.worker w v)
    (hc : s.commitTx tx = some s'.db) (hold : (s.worker w).job.key? = some key)
    (hwrote : (s.worker w).job.written? = some (tx, i)) (hnew : v.job.key? = none) :
    ∃ f', Leads Fiscal.system Always f f' ∧ Brackets s' f' := by
  obtain ⟨g, hg, -, hphase, hpending⟩ := in_inside (hb.jobs w) hold
  rw [hwrote] at hpending
  exact brackets_commit hb ht honly hl hs hc hpending (.outside hnew)
    (Fiscal.leads_exit .returned hg hphase)

theorem brackets_raise {v : Worker} (hb : Brackets s f)
    (hs : s'.worker = Function.update s.worker w v) (hdb : s'.db = s.db) (hnew : v.job.key? = none) :
    ∃ f', Leads Fiscal.system Always f f' ∧ Brackets s' f' := by
  have hrecord : OnRecord s'.db f.durable := hdb ▸ hb.record
  cases hold : (s.worker w).job.key? with
  | none => exact brackets_outside hb hs hold hnew hrecord
  | some key =>
    obtain ⟨g, hg, -, hphase, -⟩ := in_inside (hb.jobs w) hold
    obtain ⟨f', hlead, hdurable, hscopes⟩ := Fiscal.leads_exit .raised hg hphase
    refine ⟨f', hlead, brackets_update hb hs hscopes (.outside hnew) ?_⟩
    rw [hdurable, Fiscal.Scope.atClose, List.map_nil, List.append_nil]
    exact hrecord

theorem brackets_step {ok : Sys W → Act W → Prop} (hr : Reachable (system P) ok s) (hi : Fiscal.Inv f) (hb : Brackets s f)
    (h : Step P s a s') : ∃ f', Leads Fiscal.system Always f f' ∧ Brackets s' f' := by
  have hs := reachable_sound hr
  have hsc := reachable_scoped hr
  have hL := reachable_locked hr
  have hlater := (sound_onward hs h).later
  cases h with
  | tick | record | refuse | elsewhere => exact ⟨f, .refl, hb.jobs, hb.record⟩
  | ticket hc =>
    refine ⟨f, .refl, hb.jobs, onRecord_side hb.record (isolated_ticket hs _ _) ?_ hc hlater⟩
    intro i
    rw [ticketTx, write_snap, write_view_ne _ _ (by simp)]
    exact .same _
  | start hw | user hw | close hw | dropButtons hw | dropCron hw =>
    exact brackets_outside hb rfl (by rw [hw]; rfl) rfl hb.record
  | buttons hw | consult hw | skip hw =>
    exact brackets_outside hb rfl (by rw [hw]; rfl) (ofButtons_key _) hb.record
  | search hw | next hw =>
    exact brackets_outside hb rfl (by rw [hw]; rfl) (ofCron_key _) hb.record
  | @commit w t db hw hc =>
    have hse : (s.worker w).session = some t := congrArg Worker.session hw
    exact brackets_outside hb rfl (by rw [hw]; rfl) rfl
      (onRecord_side hb.record (hs.isolated t (live_session hse)) (hsc.sessions w t hse) hc hlater)
  | request hw _ hl | isolate hw _ hl =>
    exact brackets_enter hb hi hL rfl rfl (by rw [hw]; rfl) hl rfl rfl
  | @enter w _ _ _ _ hw | @resume w _ _ _ _ _ hw | @transmit w _ _ _ _ _ _ _ _ hw
  | @enterIsolated w _ _ _ _ hw =>
    exact brackets_still hb rfl (in_same (hb.jobs w) (by rw [hw]; rfl) (by rw [hw]; rfl)) hb.record
  | @skipIsolated a w se t i key queue hw =>
    have hclean : Clean t := job_scope hsc hw
    have hin := hb.jobs w
    rw [hw] at hin
    obtain ⟨g, hg, hkey, hphase, hpending⟩ := in_inside hin rfl
    refine brackets_still hb rfl ?_ hb.record
    rw [hg]
    refine .inside (congrArg some hkey.symm) hphase ?_
    rw [pending_unwritten hpending]
    exact .same (congrFun hclean _)
  | create hw h =>
    obtain ⟨b, hview, -⟩ := newAttempt_describes h
    exact brackets_write hb rfl rfl (by rw [hw]; rfl) (by rw [hw]; rfl) rfl rfl hview
  | outcome hw hf h =>
    obtain ⟨b, hview, -⟩ := outcome_made (made_of_finishes hs hw hf).2 h
    exact brackets_write hb rfl rfl (by rw [hw]; rfl) (by rw [hw]; cases hf <;> rfl) rfl rfl hview
  | consultIsolated hw h =>
    obtain ⟨b, m, k, env, cuit, found, c, st, hrec⟩ :=
      reconcile_spec (attempt_has_move hs (live_work hw rfl)) h
    obtain rfl := hrec.write
    exact brackets_write hb rfl rfl (by rw [hw]; rfl) (by rw [hw]; rfl) rfl rfl
      (pairWrite_attempt_self ..)
  | checkpoint hw hc =>
    exact brackets_checkpoint hb (hs.isolated _ (live_work hw rfl)) (job_scope hsc hw) hlater rfl hc
      (by rw [hw]; rfl) (by rw [hw]; rfl) rfl rfl
  | settle hw hc =>
    exact brackets_return hb (hs.isolated _ (live_work hw rfl)) (job_scope hsc hw) hlater rfl hc
      (by rw [hw]; rfl) (by rw [hw]; rfl) rfl
  | settleIsolated hw hc =>
    exact brackets_return hb (hs.isolated _ (live_work hw rfl)) (job_scope hsc hw).1 hlater rfl hc
      (by rw [hw]; rfl) (by rw [hw]; rfl) (ofCron_key _)
  | endRun | kill => exact brackets_raise hb rfl rfl rfl
  | endIsolated => exact brackets_raise hb rfl rfl (ofCron_key _)

/-! ## Every run -/

omit [DecidableEq W] in
theorem initial_brackets (hi : Initial s) : Brackets s ⟨fun _ => none, [], 0, fun _ => []⟩ := by
  refine ⟨fun w => ?_, fun p hp => ?_, fun i b hb => ?_⟩
  · rw [hi.workers w]
    exact .outside rfl
  · cases hp
  · rw [hi.attempts i] at hb
    cases hb

theorem system_simulates (ok : Sys W → Act W → Prop) :
    Simulates (system P) ok Fiscal.system Brackets where
  init := fun _ hi => ⟨_, ⟨fun _ => rfl, rfl, fun _ => rfl⟩, initial_brackets hi⟩
  step := fun _ _ _ _ hr _ hf hb h => brackets_step hr (Fiscal.reachable_inv hf) hb (step_cases h)

omit [DecidableEq W] in
theorem brackets_locks (hL : Locked s) (hU : LocksInUse s) (hi : Fiscal.Inv f) (hb : Brackets s f)
    (key : Nat) (w : W) :
    s.locks key = some w ↔ ∃ g ∈ f.scopes w, g.lockKey = key ∧ f.locks key = some g.id := by
  constructor
  · intro hlock
    obtain ⟨g, hg, hkey, -⟩ := in_inside (hb.jobs w) (hU w key hlock)
    have hmem : g ∈ f.scopes w := hg ▸ List.mem_singleton_self g
    exact ⟨g, hmem, hkey, hkey ▸ hi.held w g hmem⟩
  · rintro ⟨g, hmem, hkey, -⟩
    exact hkey ▸ hL w _ (in_holds (hb.jobs w) hmem)

/-- Every run of the system is one of the context manager: each session is in a run of it
exactly while its job holds the lock of a sequence, the log of attempts is what those runs
committed, and whatever the system does next, they go on to match. -/
theorem work_in_transactions (h : Reachable (system P) Always s) :
    ∃ f : Cursors W, Reachable Fiscal.system Always f ∧ Brackets s f ∧
      (∀ key w, s.locks key = some w ↔
        ∃ g ∈ f.scopes w, g.lockKey = key ∧ f.locks key = some g.id) ∧
      ∀ t, Leads (system P) Always s t →
        ∃ f', Leads Fiscal.system Always f f' ∧ Brackets t f' := by
  have hsim := system_simulates (P := P) (W := W) Always
  obtain ⟨f, hf, hb⟩ := hsim.reachable h
  refine ⟨f, hf, hb, ?_, fun t ht => hsim.leads h hf hb ht⟩
  exact brackets_locks (reachable_locked h) (reachable_locksInUse h) (Fiscal.reachable_inv hf) hb

theorem work_in_transactions_recorded :
    ∃ s : Sys (Fin 3), Reachable (system Office.platform) Always s ∧
      ∃ f : Cursors (Fin 3), Reachable Fiscal.system Always f ∧ Brackets s f ∧
        (∃ p ∈ f.durable, p.2.1 = 0) ∧ ∃ g ∈ f.scopes 0, f.locks g.lockKey = some g.id := by
  obtain ⟨s, hs, hst⟩ := Office.reaches Always
    (Office.posted 0 0 ++ Office.recorded 0 0 0 ++ [.resume 0])
    (fun s => (s.locks 86734745277920854 == some 0) && (s.db.row (.attempt 0)).isSome)
    (by decide +kernel)
  rw [Bool.and_eq_true, beq_iff_eq] at hst
  obtain ⟨b, hrow⟩ := Option.isSome_iff_exists.mp hst.2
  obtain ⟨f, hf, hb, hlocks, -⟩ := work_in_transactions hs
  obtain ⟨g, hg, hkey, hlock⟩ := (hlocks _ _).mp hst.1
  obtain ⟨p, hp, hi, -⟩ := hb.record.committed 0 b hrow
  exact ⟨s, hs, f, hf, hb, ⟨p, hp, hi⟩, g, hg, hkey ▸ hlock⟩

end ArcaEdi
