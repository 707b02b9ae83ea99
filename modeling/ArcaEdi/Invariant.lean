import ArcaEdi.Isolation
import ArcaEdi.Jobs

/-!
# The invariant of every run

`Sound` holds in every state that any run reaches, under no condition at all.
-/

namespace ArcaEdi

open Snapshot Runs

variable {W : Type} {P : Platform} {s s' : Sys W} {a : Act W}

/-! ## Single transactions -/

theorem commitTx_spec {t : DbTx} {db : Db} (h : s.commitTx t = some db) :
    t.fits s.db ∧ db = s.db.apply t ∧ uniqueAuthorized db.row s.nextAttempt := by
  obtain ⟨db', hdb', hrest⟩ := Option.bind_eq_some_iff.mp h
  split at hrest
  · next hu =>
    cases hrest
    exact ⟨(commit_eq_some.mp hdb').1, (commit_eq_some.mp hdb').2, hu⟩
  · cases hrest

theorem isolated_ticket (hs : Sound s) (k : Nat) (new : Ticket) :
    Isolated s.db s.nextAttempt (ticketTx s.db k new) :=
  isolated_write (isolated_start hs.known) (by simp)

theorem job_sound {w : W} {se : Option DbTx} {job : Job} (hs : Sound s)
    (hw : s.worker w = ⟨se, job⟩) : job.Sound s.db := by
  have hjob := hs.jobs w
  rwa [hw] at hjob

theorem Finishes.made {db : Db} {w : W} {t : DbTx} {m key i : Nat} {r : Request} {stage : Stage}
    {result : Except Exn CaeResult} (h : Finishes s w t i r a stage result)
    (hj : (Job.request m key stage).Sound db) : Clean t ∧ Made t.view i m r := by
  cases h <;> exact hj

theorem made_of_finishes {t : DbTx} {w : W} {se : Option DbTx} {m key i : Nat} {r : Request}
    {stage : Stage} {result : Except Exn CaeResult} (hs : Sound s)
    (hw : s.worker w = ⟨se, .request m key stage⟩) (hf : Finishes s w t i r a stage result) :
    Clean t ∧ Made t.view i m r :=
  hf.made (job_sound hs hw)

theorem attempt_has_move {t : DbTx} (hs : Sound s) (ht : Live s t) {i : Nat} :
    ∀ b : Attempt, t.view (.attempt i) = some b → b.moveId ≠ none :=
  fun b hb => ((hs.isolated t ht).known i b hb).2

theorem writes_pair {t t' : DbTx} (hs : Sound s) (hw : Writes P s a t t') :
    (∃ w op, a = .user w op ∧ s.worker w = ⟨some t, .idle⟩ ∧ op.run s.clock t = .ok t') ∨
      ∃ i b m st, t' = pairWrite t i b m st := by
  cases hw with
  | user hw h => exact .inl ⟨_, _, rfl, hw, h⟩
  | create hw h =>
    obtain ⟨header, detail, -, -, rfl⟩ := create_spec h
    exact .inr ⟨_, _, _, _, rfl⟩
  | outcome hw hf h =>
    obtain ⟨-, b, hb, -⟩ := made_of_finishes hs hw hf
    obtain ⟨b', st, rfl, -⟩ := outcome_spec hb h
    exact .inr ⟨_, _, _, _, rfl⟩
  | reconcile hw h =>
    obtain ⟨b, m, k, env, cuit, found, b', st, hr⟩ :=
      reconcile_spec (attempt_has_move hs (live_of_target hw)) h
    exact .inr ⟨_, _, _, _, hr.write⟩

variable [DecidableEq W]

/-! ## Nothing goes back -/

theorem step_ids (h : Step P s a s') : s.nextAttempt ≤ s'.nextAttempt := by
  cases h with
  | create => exact Nat.le_succ _
  | _ => exact Nat.le_refl _

theorem step_clock (h : Step P s a s') : s.clock ≤ s'.clock := by
  cases h with
  | tick => exact Nat.le_succ _
  | _ => exact Nat.le_refl _

/-- The rows after a step are a later state of those before it. -/
structure Onward (s s' : Sys W) : Prop where
  follows : Follows guard s.db s'.db
  later : Later s.db.row s'.db.row
  known : Known s'.db.row s'.nextAttempt

omit [DecidableEq W] in
theorem onward_commit {t : DbTx} (hs : Sound s) (ht : Isolated s.db s.nextAttempt t)
    (hc : s.commitTx t = some s'.db) (hids : s.nextAttempt ≤ s'.nextAttempt) : Onward s s' := by
  obtain ⟨hfit, hdb, -⟩ := commitTx_spec hc
  obtain ⟨hf, hl, hk⟩ := isolated_commit ht hs.known hfit
  rw [← hdb] at hf hl hk
  exact ⟨hf, hl, known_mono hk hids⟩

theorem sound_onward (hs : Sound s) (h : Step P s a s') : Onward s s' := by
  have hids := step_ids h
  have hkeep : s'.db = s.db → Onward s s' := by
    intro hdb
    refine ⟨?_, ?_, ?_⟩
    · rw [hdb]
      exact follows_refl _
    · rw [hdb]
      exact later_refl _
    · rw [hdb]
      exact known_mono hs.known hids
  cases step_effect h with
  | quiet hdb _ => exact hkeep hdb
  | write _ hdb _ _ => exact hkeep hdb
  | commit ht hc _ => exact onward_commit hs (hs.isolated _ ht) hc hids
  | ticket hc _ => exact onward_commit hs (isolated_ticket hs _ _) hc hids

/-! ## Writes -/

theorem Outcome.not_sent {b : Attempt} {st : ArcaStatus} (h : Outcome b st) : b.state ≠ .sent := by
  cases h with
  | uncertain ha => simp [ha]
  | closed ha => rcases ha with ha | ha <;> simp [ha]
  | authorized ha => simp [ha]

theorem newAttempt_describes {P : Platform} {now m i last : Nat} {t t' : DbTx} {c : Intent}
    {r : Request} (h : authorizeCreate P now t m i c last = .ok (t', r)) : Made t'.view i m r := by
  obtain ⟨header, detail, hreq, rfl, rfl⟩ := create_spec h
  obtain ⟨rfl, hdesde, hhasta, -⟩ := prepareRequest_spec hreq
  exact ⟨_, pairWrite_attempt_self .., rfl, rfl, rfl, rfl, rfl, hdesde.symm, hhasta.symm, rfl⟩

theorem outcome_made {now d m i : Nat} {t t' : DbTx} {r : Request} {result : Except Exn CaeResult}
    (hm : Made t.view i m r) (h : authorizeOutcome now d t m i result = .ok t') :
    Made t'.view i m r := by
  obtain ⟨b, hb, hd⟩ := hm
  obtain ⟨b', st, rfl, hev, -, -⟩ := outcome_spec hb h
  exact ⟨b', pairWrite_attempt_self .., hev ▸ hd⟩

omit [DecidableEq W] in
theorem writes_isolated {t t' : DbTx} (hs : Sound s) (hw : Writes P s a t t') :
    (∃ w reply, a = .lastAuthorized w reply ∧ Isolated s.db (s.nextAttempt + 1) t') ∨
      Isolated s.db s.nextAttempt t' := by
  have ht := hs.isolated t hw.live
  cases hw with
  | user hw h => exact .inr (isolated_user ht (user_writes h))
  | create hw h =>
    obtain ⟨header, detail, -, -, rfl⟩ := create_spec h
    exact .inl ⟨_, _, rfl, isolated_create ht rfl⟩
  | outcome hw hf h =>
    obtain ⟨-, b, hb, hd⟩ := made_of_finishes hs hw hf
    obtain ⟨b', st, rfl, hev, hout, -⟩ := outcome_spec hb h
    exact .inr (isolated_pairWrite ht hb hd.move hev hout.not_sent)
  | reconcile hw h =>
    obtain ⟨b, m, k, env, cuit, found, b', st, hr⟩ :=
      reconcile_spec (attempt_has_move hs (live_of_target hw)) h
    obtain rfl := hr.write
    exact .inr (isolated_pairWrite ht hr.view hr.move hr.evidence hr.outcome.not_sent)

theorem sound_isolated (hs : Sound s) (h : Step P s a s') :
    ∀ t, Live s' t → Isolated s'.db s'.nextAttempt t := by
  have ho := sound_onward hs h
  have hids := step_ids h
  have hold : ∀ t, Live s t → Isolated s'.db s'.nextAttempt t :=
    fun t ht => isolated_mono (hs.isolated t ht) ho.follows ho.later hids
  intro t ht
  cases step_effect h with
  | quiet hdb htx =>
    rcases htx t ht with rfl | ht
    · exact isolated_mono (isolated_start hs.known) ho.follows ho.later hids
    · exact hold t ht
  | write hw hdb hn htx =>
    rcases htx t ht with rfl | ht
    · rcases writes_isolated hs hw with ⟨w, reply, ha, hi⟩ | hi
      · exact isolated_mono hi ho.follows ho.later (Nat.le_of_eq (hn w reply ha).symm)
      · exact isolated_mono hi ho.follows ho.later hids
    · exact hold t ht
  | commit _ _ htx => exact hold t (htx t ht)
  | ticket _ htx => exact hold t (htx t ht)

/-! ## Runs -/

theorem apply_attempt {db : Db} {n i : Nat} {t : DbTx} {b : Attempt} (ht : Isolated db n t)
    (hb : t.view (.attempt i) = some b) :
    ∃ c : Attempt, (db.apply t).row (.attempt i) = some c ∧ c.toEvidence = b.toEvidence := by
  by_cases hd : Key.attempt i ∈ t.dirty
  · exact ⟨b, by rw [apply_row_dirty db hd, hb], rfl⟩
  · rw [t.clean _ hd] at hb
    obtain ⟨c, hrow, hev, -⟩ := ht.since i b hb
    exact ⟨c, by rw [apply_row_clean db hd, hrow], hev⟩

theorem made_commit {db : Db} {n : Nat} {t : DbTx} {i m : Nat} {r : Request}
    (ht : Isolated db n t) (hm : Made t.view i m r) : Made (db.apply t).row i m r := by
  obtain ⟨b, hb, hd⟩ := hm
  obtain ⟨c, hrow, hev⟩ := apply_attempt ht hb
  exact ⟨c, hrow, hev ▸ hd⟩

theorem sound_jobs (hs : Sound s) (h : Step P s a s') (w : W) : (s'.worker w).job.Sound s'.db := by
  have hl := (sound_onward hs h).later
  have hold := hs.jobs w
  have htx : ∀ t, (s.worker w).job.tx? = some t → Isolated s.db s.nextAttempt t :=
    fun t ht => hs.isolated t (live_job ht)
  rcases job_step h w with ⟨-, hsame⟩ | ⟨-, hjob⟩
  · rw [hsame]
    exact job_sound_later hold hl
  clear h
  generalize (s.worker w).job = j at hold htx hjob
  generalize (s'.worker w).job = j' at hjob ⊢
  cases hjob with
  | idle => trivial
  | buttons => trivial
  | search ht => trivial
  | next hq => trivial
  | request ht hk hfree => trivial
  | enter h => exact ⟨rfl, _, h⟩
  | create h => exact newAttempt_describes h
  | checkpoint hc =>
    simp only [Job.Sound, Stage.Sound]
    rw [(commitTx_spec hc).2.1]
    exact made_commit (htx _ rfl) hold
  | resume => exact ⟨rfl, hold⟩
  | outcome hf h => exact outcome_made (by cases hf <;> exact hold.2) h
  | transmit => exact hold
  | isolate ht hb hfree => trivial
  | enterIsolated => trivial
  | settled => trivial

theorem sound_step (hs : Sound s) (h : Step P s a s') : Sound s' :=
  ⟨(sound_onward hs h).known, sound_isolated hs h, sound_jobs hs h⟩

/-! ## Every run -/

omit [DecidableEq W] in
theorem initial_not_live (hs : Initial s) (t : DbTx) : ¬ Live s t := by
  rintro ⟨w, hw⟩
  rw [hs.workers w] at hw
  rcases hw with hw | hw <;> cases hw

omit [DecidableEq W] in
theorem initial_sound (hs : Initial s) : Sound s := by
  refine ⟨?_, fun t ht => absurd ht (initial_not_live hs t), ?_⟩
  · intro i b hb
    rw [hs.attempts i] at hb
    cases hb
  · intro w
    rw [hs.workers w]
    trivial

theorem reachable_sound {ok : Sys W → Act W → Prop} (h : Reachable (system P) ok s) : Sound s :=
  reachable_inv (fun _ => initial_sound) (fun _ _ _ _ _ hs h => sound_step hs (step_cases h)) h

/-! ## Invariants of views

A property of all views follows from what a snapshot, a write and a commit do
to it.
-/

theorem views_step {D : Db → Prop} {T : DbTx → Prop} (hs : Sound s) (h : Step P s a s')
    (hstart : T (Tx.start s.db)) (hticket : ∀ k new, T (ticketTx s.db k new))
    (hwrite : ∀ t t', Writes P s a t t' → T t → T t')
    (hcommit : ∀ t, Isolated s.db s.nextAttempt t → s.commitTx t = some s'.db → T t →
      D (s.db.apply t))
    (hD : D s.db) (hT : ∀ t, Live s t → T t) : D s'.db ∧ ∀ t, Live s' t → T t := by
  cases step_effect h with
  | quiet hdb htx =>
    rw [hdb]
    refine ⟨hD, fun t ht => ?_⟩
    rcases htx t ht with rfl | ht
    · exact hstart
    · exact hT t ht
  | write hw hdb hn htx =>
    rw [hdb]
    refine ⟨hD, fun t ht => ?_⟩
    rcases htx t ht with rfl | ht
    · exact hwrite _ _ hw (hT _ hw.live)
    · exact hT t ht
  | commit ht hc htx =>
    refine ⟨?_, fun t ht => hT t (htx t ht)⟩
    rw [(commitTx_spec hc).2.1]
    exact hcommit _ (hs.isolated _ ht) hc (hT _ ht)
  | ticket hc htx =>
    refine ⟨?_, fun t ht => hT t (htx t ht)⟩
    rw [(commitTx_spec hc).2.1]
    exact hcommit _ (isolated_ticket hs _ _) hc (hticket _ _)

/-- The property of invoice `m` reads only the invoice and its attempts. -/
def Local (Q : View → Nat → Prop) : Prop :=
  ∀ A B m, SameGroup guard (.move m) A B → Q A m → Q B m

theorem sameGroup_write {t : DbTx} {m : Nat} {k : Key} {v : Row k} (hm : k ≠ .move m)
    (hk : ∀ i, k ≠ .attempt i) : SameGroup guard (.move m) t.view (t.write k v).view := by
  refine ⟨(write_view_ne t v hm.symm).symm, ?_⟩
  intro j hj
  by_cases hjk : j = k
  · subst hjk
    cases j with
    | attempt i => exact absurd rfl (hk i)
    | move | company | certificate | journal => rcases hj with hj | hj <;> cases hj
  · exact (write_view_ne t v hjk).symm

theorem sameGroup_pairWrite {t : DbTx} {i m m' : Nat} {b : Attempt} {st : ArcaStatus} (hm : m' ≠ m)
    (hold : ∀ a, t.view (.attempt i) = some a → a.moveId = some m) (hnew : b.moveId = some m) :
    SameGroup guard (.move m') t.view (pairWrite t i b m st).view := by
  refine ⟨(pairWrite_move_ne hm).symm, ?_⟩
  intro j hj
  by_cases hmove : j = .move m
  · subst hmove
    rcases hj with hj | hj <;> cases hj
  by_cases hatt : j = .attempt i
  · subst hatt
    have hne : some (Key.move m) ≠ some (Key.move m') := by simpa using hm.symm
    rcases hj with hj | hj
    · cases hview : t.view (.attempt i) with
      | none =>
        rw [hview] at hj
        cases hj
      | some a =>
        rw [hview, guard_attempt (hold a hview)] at hj
        exact absurd hj hne
    · rw [pairWrite_attempt_self, guard_attempt hnew] at hj
      exact absurd hj hne
  · rw [pairWrite, write_view_ne _ _ hmove, write_view_ne _ _ hatt]

theorem groups_step {Q : View → Nat → Prop} (hQ : Local Q) (hs : Sound s) (h : Step P s a s')
    (hwrite : ∀ t t', Writes P s a t t' → (∀ m, Q t.view m) → ∀ m, Q t'.view m)
    (hdb : ∀ m, Q s.db.row m) (htx : ∀ t, Live s t → ∀ m, Q t.view m) :
    (∀ m, Q s'.db.row m) ∧ ∀ t, Live s' t → ∀ m, Q t.view m := by
  refine views_step (D := fun db => ∀ m, Q db.row m) (T := fun t => ∀ m, Q t.view m) hs h hdb ?_
    hwrite ?_ hdb htx
  · intro k new m
    exact hQ _ _ m (sameGroup_write (by simp) (by simp)) (hdb m)
  · intro t ht hc hT m
    exact apply_inv (P := fun v g => ∀ m, g = .move m → Q v m)
      (fun A B hAB hA m hm => hQ A B m (hm ▸ hAB) (hA m hm)) ht.follows ht.covers
      (commitTx_spec hc).1 (fun m' hm' => hdb m') (fun m' hm' => hT m') m rfl

end ArcaEdi
