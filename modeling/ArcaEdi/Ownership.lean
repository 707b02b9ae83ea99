import Mathlib.Data.Fintype.Basic
import ArcaEdi.Invariant

/-!
# Who works on what

The locks that workers hold, the attempt that each run owns, and what a commit
may do to an attempt.
-/

namespace ArcaEdi

open Snapshot Runs

variable {W : Type} {P : Platform} {s s' : Sys W} {a : Act W} {w w' : W}

/-! ## Locks -/

/-- The lock that a job works under. -/
def Job.key? : Job → Option Nat
  | .request _ key _ | .isolated _ _ key _ => some key
  | .idle | .buttons _ | .cron _ => none

/-- A job that works under a lock holds it. -/
def Locked (s : Sys W) : Prop :=
  ∀ w key, (s.worker w).job.key? = some key → s.locks key = some w

theorem locked_unique {key : Nat} (h : Locked s) (hw : (s.worker w).job.key? = some key)
    (hw' : (s.worker w').job.key? = some key) : w = w' :=
  Option.some.inj ((h w key hw).symm.trans (h w' key hw'))

@[simp] theorem ofButtons_key (queue : List Nat) : (Job.ofButtons queue).key? = none := by
  cases queue <;> rfl
@[simp] theorem ofCron_key (queue : List Nat) : (Job.ofCron queue).key? = none := by
  cases queue <;> rfl

variable [DecidableEq W]

theorem locked_keep {v : Worker} (h : Locked s) (hl : s'.locks = s.locks)
    (hs : s'.worker = Function.update s.worker w v)
    (hv : v.job.key? = none ∨ v.job.key? = (s.worker w).job.key?) : Locked s' := by
  intro w' key hkey
  rw [hl]
  rw [hs] at hkey
  by_cases hww : w' = w
  · subst hww
    rw [Function.update_self] at hkey
    rcases hv with hv | hv
    · rw [hv] at hkey
      cases hkey
    · exact h w' key (hv ▸ hkey)
  · rw [Function.update_of_ne hww] at hkey
    exact h w' key hkey

theorem locked_lock {v : Worker} {key : Nat} (h : Locked s) (hfree : s.locks key = none)
    (hl : s'.locks = Function.update s.locks key (some w))
    (hs : s'.worker = Function.update s.worker w v) (hv : v.job.key? = some key) : Locked s' := by
  intro w' key' hkey
  rw [hl]
  rw [hs] at hkey
  by_cases hww : w' = w
  · subst hww
    rw [Function.update_self, hv] at hkey
    cases hkey
    exact Function.update_self ..
  · rw [Function.update_of_ne hww] at hkey
    have hheld := h w' key' hkey
    have hne : key' ≠ key := by
      rintro rfl
      rw [hfree] at hheld
      cases hheld
    rw [Function.update_of_ne hne]
    exact hheld

theorem locked_release {v : Worker} (h : Locked s) (hl : s'.locks = (s.release w).locks)
    (hs : s'.worker = Function.update s.worker w v) (hv : v.job.key? = none) : Locked s' := by
  intro w' key hkey
  rw [hs] at hkey
  by_cases hww : w' = w
  · subst hww
    rw [Function.update_self, hv] at hkey
    cases hkey
  · rw [Function.update_of_ne hww] at hkey
    have hheld := h w' key hkey
    simp only [hl, Sys.release, hheld, Option.some.injEq]
    rw [if_neg hww]

theorem locked_step (hL : Locked s) (h : Step P s a s') : Locked s' := by
  cases h with
  | tick | ticket | record | refuse | elsewhere => exact hL
  | start | user | close | commit | dropButtons | dropCron =>
    exact locked_keep hL rfl rfl (.inl rfl)
  | buttons | consult | skip => exact locked_keep hL rfl rfl (.inl (ofButtons_key _))
  | search | next => exact locked_keep hL rfl rfl (.inl (ofCron_key _))
  | request hw hk hl | isolate hw hk hl => exact locked_lock hL hl rfl rfl rfl
  | enter hw | create hw | checkpoint hw | resume hw | outcome hw | transmit hw | enterIsolated hw
  | consultIsolated hw | skipIsolated hw => exact locked_keep hL rfl rfl (.inr (by rw [hw]; rfl))
  | settle | endRun | kill => exact locked_release hL rfl rfl rfl
  | settleIsolated | endIsolated => exact locked_release hL rfl rfl (ofCron_key _)

theorem reachable_locked {ok : Sys W → Act W → Prop} (h : Reachable (system P) ok s) : Locked s := by
  refine reachable_inv ?_ (fun _ _ _ _ _ hL h => locked_step hL (step_cases h)) h
  intro s hi w key hkey
  rw [hi.workers w] at hkey
  cases hkey

/-! ## Owners -/

/-- The attempt that a run created. -/
def Stage.attempt? : Stage → Option Nat
  | .prepared _ i _ | .recorded i _ | .sending _ i _ | .awaiting _ i _ | .answered _ i _ => some i
  | .locked | .asking _ _ => none

def Job.attempt? : Job → Option Nat
  | .request _ _ stage => stage.attempt?
  | .idle | .buttons _ | .cron _ | .isolated _ _ _ _ => none

/-- The attempt whose request the run may still send. -/
def Job.toSend? : Job → Option Nat
  | .request _ _ (.prepared _ i _) | .request _ _ (.recorded i _) | .request _ _ (.sending _ i _) =>
    some i
  | _ => none

/-- The attempt of a run between its first checkpoint and its recorded outcome. -/
def Job.running? : Job → Option Nat
  | .request _ _ (.prepared _ _ _) => none
  | job => job.attempt?

theorem attempt_of_running {job : Job} {i : Nat} (h : job.running? = some i) :
    job.attempt? = some i := by
  unfold Job.running? at h
  split at h
  · cases h
  · exact h

theorem attempt_of_toSend {job : Job} {i : Nat} (h : job.toSend? = some i) :
    job.attempt? = some i := by
  unfold Job.toSend? at h
  split at h <;> cases h <;> rfl

omit [DecidableEq W] in
theorem Finishes.attempt {t : DbTx} {m key i : Nat} {r : Request} {stage : Stage}
    {result : Except Exn CaeResult} (h : Finishes s w t i r a stage result) :
    (Job.request m key stage).running? = some i := by
  cases h <;> rfl

theorem attempt_step {i : Nat} (h : Step P s a s') (hi : (s'.worker w).job.attempt? = some i) :
    (s.worker w).job.attempt? = some i ∨ i = s.nextAttempt ∧ ∃ reply, a = .lastAuthorized w reply := by
  rcases job_step h w with ⟨-, hsame⟩ | ⟨-, hjob⟩
  · exact .inl (hsame ▸ hi)
  clear h
  generalize (s'.worker w).job = j' at hi hjob
  generalize (s.worker w).job = j at hjob ⊢
  cases hjob with
  | create h =>
    cases hi
    exact .inr ⟨rfl, _, rfl⟩
  | outcome hf h =>
    cases hi
    exact .inl (attempt_of_running hf.attempt)
  | checkpoint | resume | transmit => exact .inl hi
  | _ => cases hi

theorem running_step {i : Nat} (h : Step P s a s') (hi : (s'.worker w).job.running? = some i) :
    (s.worker w).job.running? = some i ∨ a = .checkpoint w ∧ ∃ m key t r,
      (s.worker w).job = .request m key (.prepared t i r) ∧ s.commitTx t = some s'.db := by
  rcases job_step h w with ⟨-, hsame⟩ | ⟨-, hjob⟩
  · exact .inl (hsame ▸ hi)
  clear h
  generalize (s'.worker w).job = j' at hi hjob
  generalize (s.worker w).job = j at hjob ⊢
  cases hjob with
  | checkpoint hc =>
    cases hi
    exact .inr ⟨rfl, _, _, _, _, rfl, hc⟩
  | outcome hf h =>
    cases hi
    exact .inl hf.attempt
  | resume | transmit => exact .inl hi
  | _ => cases hi

theorem toSend_step {i : Nat} (h : Step P s a s') (hi : (s'.worker w).job.toSend? = some i) :
    (s.worker w).job.toSend? = some i ∧ (a.worker? = some w → a = .checkpoint w ∨ a = .resume w) ∨
      i = s.nextAttempt := by
  rcases job_step h w with ⟨hne, hsame⟩ | ⟨-, hjob⟩
  · exact .inl ⟨hsame ▸ hi, fun ha => absurd ha hne⟩
  clear h
  generalize (s'.worker w).job = j' at hi hjob
  generalize (s.worker w).job = j at hjob ⊢
  cases hjob with
  | create h =>
    cases hi
    exact .inr rfl
  | checkpoint hc => exact .inl ⟨hi, fun _ => .inl rfl⟩
  | resume => exact .inl ⟨hi, fun _ => .inr rfl⟩
  | _ => cases hi

omit [DecidableEq W] in
theorem made_known {v : View} {n i m : Nat} {r : Request} (hk : Known v n) (h : Made v i m r) :
    i < n := by
  obtain ⟨b, hb, -⟩ := h
  exact (hk i b hb).1

omit [DecidableEq W] in
theorem attempt_known {i : Nat} (hs : Sound s) (h : (s.worker w).job.attempt? = some i) :
    i < s.nextAttempt := by
  have hjob := hs.jobs w
  have htx : ∀ t, (s.worker w).job.tx? = some t → Known t.view s.nextAttempt :=
    fun t ht => (hs.isolated t (live_job ht)).known
  generalize (s.worker w).job = j at h hjob htx
  match j, h with
  | .request m key (.prepared t i r), rfl => exact made_known (htx t rfl) hjob
  | .request m key (.recorded i r), rfl => exact made_known hs.known hjob
  | .request m key (.sending t i r), rfl => exact made_known (htx t rfl) hjob.2
  | .request m key (.awaiting t i r), rfl => exact made_known (htx t rfl) hjob.2
  | .request m key (.answered t i r), rfl => exact made_known (htx t rfl) hjob

/-- No two runs own one attempt. -/
def OneOwner (s : Sys W) : Prop :=
  ∀ w w' i, (s.worker w).job.attempt? = some i → (s.worker w').job.attempt? = some i → w = w'

theorem oneOwner_step (hs : Sound s) (ho : OneOwner s) (h : Step P s a s') : OneOwner s' := by
  intro w w' i hw hw'
  rcases attempt_step h hw with hw | ⟨rfl, reply, rfl⟩
  · rcases attempt_step h hw' with hw' | ⟨rfl, -⟩
    · exact ho w w' i hw hw'
    · exact absurd (attempt_known hs hw) (Nat.lt_irrefl _)
  · rcases attempt_step h hw' with hw' | ⟨-, reply', heq⟩
    · exact absurd (attempt_known hs hw') (Nat.lt_irrefl _)
    · cases heq
      rfl

theorem reachable_oneOwner {ok : Sys W → Act W → Prop} (h : Reachable (system P) ok s) :
    OneOwner s := by
  refine reachable_inv ?_
    (fun _ _ _ hr _ ho h => oneOwner_step (reachable_sound hr) ho (step_cases h)) h
  intro s hi w w' i hw
  rw [hi.workers w] at hw
  cases hw

/-! ## What each transaction may change -/

/-- What becomes of an attempt on a transaction that is not its run's. -/
inductive Closes : Option Attempt → Option Attempt → Prop
  | same (b : Option Attempt) : Closes b b
  | closed {b c : Attempt} (hb : b.state.isOpen = true) (hc : c.state.isOpen = false) :
      Closes (some b) (some c)

/-- The transaction closes attempts, and does nothing else to any. -/
def Side (t : DbTx) : Prop := ∀ i, Closes (t.snap.row (.attempt i)) (t.view (.attempt i))

/-- The transaction writes invoices, and no other row but attempt `i`. -/
def Only (t : DbTx) (i : Nat) : Prop :=
  ∀ k, k ≠ .attempt i → (∀ m, k ≠ .move m) → t.view k = t.snap.row k

/-- What the transaction of each job may have written. -/
def Job.Scope : Job → Prop
  | .request _ _ (.prepared t i _) | .request _ _ (.answered t i _) => Only t i
  | .isolated _ _ _ (.working t) => Clean t
  | .isolated _ i _ (.settled t) => Only t i ∧ Side t
  | _ => True

/-- Sessions and jobs keep to what is theirs to write. -/
structure Scoped (s : Sys W) : Prop where
  sessions : ∀ w t, (s.worker w).session = some t → Side t
  jobs : ∀ w, (s.worker w).job.Scope

section Scopes

variable {t t' : DbTx} {i m k : Nat} {b c : Attempt} {st : ArcaStatus}

theorem only_pairWrite (h : Clean t) : Only (pairWrite t i b m st) i := by
  intro k hk hm
  rw [pairWrite, write_view_ne _ _ (hm m), write_view_ne _ _ hk, h]
  rfl

theorem side_clean (h : Clean t) : Side t := by
  intro i
  rw [h]
  exact .same _

theorem side_open (h : Side t) (hview : t.view (.attempt i) = some b) (hb : b.state.isOpen = true) :
    t.snap.row (.attempt i) = some b := by
  have hsnap := h i
  rw [hview] at hsnap
  generalize t.snap.row (.attempt i) = x at hsnap ⊢
  cases hsnap with
  | same => rfl
  | closed _ hclosed =>
    rw [hb] at hclosed
    cases hclosed

theorem side_evidence {db : Db} {n : Nat} (h : Side t) (ht : Isolated db n t)
    (hview : t.view (.attempt i) = some b) :
    ∃ c : Attempt, db.row (.attempt i) = some c ∧ c.toEvidence = b.toEvidence := by
  have hsnap := h i
  rw [hview] at hsnap
  obtain ⟨x, hx⟩ : ∃ x : Attempt, t.snap.row (.attempt i) = some x := by
    generalize t.snap.row (.attempt i) = y at hsnap
    cases hsnap with
    | same => exact ⟨_, rfl⟩
    | closed => exact ⟨_, rfl⟩
  obtain ⟨y, hy, hev, -⟩ := ht.grown i x hx
  rw [hview] at hy
  cases hy
  obtain ⟨c, hc, hev', -⟩ := ht.since i x hx
  exact ⟨c, hc, hev'.trans hev.symm⟩

theorem side_pairWrite (h : Side t) (hview : t.view (.attempt i) = some b)
    (hb : b.state.isOpen = true) (hc : c.state.isOpen = false) : Side (pairWrite t i c m st) := by
  intro j
  rw [pairWrite_snap]
  by_cases hj : j = i
  · subst hj
    rw [pairWrite_attempt_self, side_open h hview hb]
    exact .closed hb hc
  · rw [pairWrite_attempt_ne hj]
    exact h j

theorem side_user {now : Nat} {D : Move → Prop} {K : Nat → Company → Prop} (h : Side t)
    (hu : UserWrites now D K t t') : Side t' := by
  induction hu with
  | refl => exact h
  | tail _ hu ih =>
    intro i
    cases hu <;>
    · rw [write_snap, write_view_ne _ _ (by simp)]
      exact ih i

omit [DecidableEq W] in
theorem Reconciles.closed {reply : SoapReply (Option ConsultResponse)} {env : Environment}
    {cuit : Int} {found : Option Found} (h : Reconciles s t i reply t' b m k env cuit found c st) :
    c.state.isOpen = false := by
  cases found with
  | none =>
    rw [h.notFound rfl]
    rfl
  | some f =>
    rw [(h.isFound f rfl).1]
    rfl

omit [DecidableEq W] in
theorem side_reconcile {reply : SoapReply (Option ConsultResponse)} (hs : Sound s) (ht : Live s t)
    (hside : Side t) (h : s.reconcile t i reply = some (.ok t')) : Side t' := by
  obtain ⟨b, m, k, env, cuit, found, c, st, hr⟩ := reconcile_spec (attempt_has_move hs ht) h
  obtain rfl := hr.write
  exact side_pairWrite hside hr.view hr.isOpen hr.closed

omit [DecidableEq W] in
theorem only_reconcile {reply : SoapReply (Option ConsultResponse)} (hs : Sound s) (ht : Live s t)
    (hclean : Clean t) (h : s.reconcile t i reply = some (.ok t')) : Only t' i := by
  obtain ⟨b, m, k, env, cuit, found, c, st, hr⟩ := reconcile_spec (attempt_has_move hs ht) h
  obtain rfl := hr.write
  exact only_pairWrite hclean

end Scopes

theorem scoped_sessions (hs : Sound s) (hsc : Scoped s) (h : Step P s a s') {t : DbTx}
    (ht : (s'.worker w).session = some t) : Side t := by
  cases session_step h ht with
  | same ht => exact hsc.sessions w t ht
  | start => exact side_clean rfl
  | user hw h =>
    exact side_user (hsc.sessions w _ (congrArg Worker.session hw))
      (user_writes h)
  | reconcile hw h =>
    have hse := congrArg Worker.session hw
    exact side_reconcile hs (live_session hse) (hsc.sessions w _ hse) h

theorem scoped_jobs (hs : Sound s) (hsc : Scoped s) (h : Step P s a s') (w : W) :
    (s'.worker w).job.Scope := by
  have hscope := hsc.jobs w
  have hjob := hs.jobs w
  have hlive : ∀ t, (s.worker w).job.tx? = some t → Live s t := fun t ht => live_job ht
  rcases job_step h w with ⟨-, hsame⟩ | ⟨-, hstep⟩
  · rw [hsame]
    exact hscope
  clear h
  generalize (s'.worker w).job = j' at hstep ⊢
  generalize (s.worker w).job = j at hscope hjob hlive hstep
  cases hstep with
  | create h =>
    obtain ⟨header, detail, -, -, rfl⟩ := create_spec h
    exact only_pairWrite hjob.1
  | outcome hf h =>
    obtain ⟨hclean, b, hb, -⟩ := hf.made hjob
    obtain ⟨c, st, rfl, -⟩ := outcome_spec hb h
    exact only_pairWrite hclean
  | enterIsolated => exact rfl
  | settled h =>
    rcases h with rfl | ⟨reply, -, h⟩
    · exact ⟨fun k _ _ => congrFun hscope k, side_clean hscope⟩
    · exact ⟨only_reconcile hs (hlive _ rfl) hscope h,
        side_reconcile hs (hlive _ rfl) (side_clean hscope) h⟩
  | _ => trivial

omit [DecidableEq W] in
theorem job_scope {se : Option DbTx} {job : Job} (hsc : Scoped s) (hw : s.worker w = ⟨se, job⟩) :
    job.Scope := by
  have hscope := hsc.jobs w
  rwa [hw] at hscope

theorem scoped_step (hs : Sound s) (hsc : Scoped s) (h : Step P s a s') : Scoped s' :=
  ⟨fun _ _ ht => scoped_sessions hs hsc h ht, scoped_jobs hs hsc h⟩

omit [DecidableEq W] in
theorem initial_scoped (hi : Initial s) : Scoped s := by
  refine ⟨fun w t ht => ?_, fun w => ?_⟩
  · rw [hi.workers w] at ht
    cases ht
  · rw [hi.workers w]
    trivial

theorem reachable_scoped {ok : Sys W → Act W → Prop} (h : Reachable (system P) ok s) : Scoped s :=
  reachable_inv (fun _ => initial_scoped)
    (fun _ _ _ hr _ hsc h => scoped_step (reachable_sound hr) hsc (step_cases h)) h

omit [DecidableEq W] in
theorem target_side {t : DbTx} {i : Nat} (hsc : Scoped s) (hw : (s.worker w).target? = some (t, i)) :
    Side t := by
  unfold Worker.target? at hw
  split at hw
  · next heq =>
    cases hw
    exact hsc.sessions w _ (congrArg Worker.session heq)
  · next heq =>
    cases hw
    exact side_clean (job_scope hsc heq)
  · cases hw

/-! ## What a commit changes -/

omit [DecidableEq W] in
theorem Commits.isolated_tx {t : DbTx} (hs : Sound s) (h : Commits s a t) :
    Isolated s.db s.nextAttempt t := by
  cases h with
  | session hw => exact hs.isolated _ (live_session (congrArg Worker.session hw))
  | checkpoint hw | settle hw | isolated hw => exact hs.isolated _ (live_work hw rfl)
  | ticket => exact isolated_ticket hs _ _

omit [DecidableEq W] in
/-- A row after a commit is what it was, or it was as the transaction's snapshot
has it and is what the transaction made of it. -/
theorem commit_row {t : DbTx} (ht : Isolated s.db s.nextAttempt t)
    (hc : s.commitTx t = some s'.db) (k : Key) :
    s'.db.row k = s.db.row k ∨ s.db.row k = t.snap.row k ∧ s'.db.row k = t.view k := by
  obtain ⟨hfit, hdb, -⟩ := commitTx_spec hc
  rw [hdb]
  exact apply_row_fits ht.follows hfit k

omit [DecidableEq W] in
theorem commit_attempt {t : DbTx} {i : Nat} {b : Attempt} (ht : Isolated s.db s.nextAttempt t)
    (hc : s.commitTx t = some s'.db) (hb : t.view (.attempt i) = some b) :
    ∃ c : Attempt, s'.db.row (.attempt i) = some c ∧ c.toEvidence = b.toEvidence := by
  rw [(commitTx_spec hc).2.1]
  exact apply_attempt ht hb

omit [DecidableEq W] in
theorem prepared_attempt {m key i : Nat} {t : DbTx} {r : Request} (hs : Sound s)
    (hw : (s.worker w).job = .request m key (.prepared t i r)) :
    Isolated s.db s.nextAttempt t ∧ Made t.view i m r := by
  have hjob := hs.jobs w
  rw [hw] at hjob
  exact ⟨hs.isolated t (live_job (w := w) (by rw [hw]; rfl)), hjob⟩

/-- The attempt of a run in progress is committed. -/
def Committed (s : Sys W) : Prop :=
  ∀ w i, (s.worker w).job.running? = some i → ∃ b, s.db.row (.attempt i) = some b

theorem committed_step (hs : Sound s) (hc : Committed s) (h : Step P s a s') : Committed s' := by
  intro w i hi
  rcases running_step h hi with hold | ⟨-, m, key, t, r, hw, hcommit⟩
  · obtain ⟨b, hb⟩ := hc w i hold
    obtain ⟨c, hrow, -⟩ := (sound_onward hs h).later i b hb
    exact ⟨c, hrow⟩
  · obtain ⟨ht, b, hb, -⟩ := prepared_attempt hs hw
    obtain ⟨c, hrow, -⟩ := commit_attempt ht hcommit hb
    exact ⟨c, hrow⟩

theorem reachable_committed {ok : Sys W → Act W → Prop} (h : Reachable (system P) ok s) :
    Committed s := by
  refine reachable_inv ?_
    (fun _ _ _ hr _ hc h => committed_step (reachable_sound hr) hc (step_cases h)) h
  intro s hi w i hw
  rw [hi.workers w] at hw
  cases hw

/-- How a committed attempt may change. -/
inductive AttemptChange (s s' : Sys W) (i : Nat) : Act W → Prop
  | same {a : Act W} (h : s'.db.row (.attempt i) = s.db.row (.attempt i)) : AttemptChange s s' i a
  /-- A session closed it. -/
  | session {w : W} {t : DbTx} {b c : Attempt} (hw : s.worker w = ⟨some t, .idle⟩)
      (hold : s.db.row (.attempt i) = some b) (hnew : s'.db.row (.attempt i) = some c)
      (hsnap : t.snap.row (.attempt i) = some b) (hview : t.view (.attempt i) = some c)
      (hb : b.state.isOpen = true) (hc : c.state.isOpen = false) :
      AttemptChange s s' i (.commit w)
  /-- The reconciliation cron closed it. -/
  | isolated {w : W} {se : Option DbTx} {queue : List Nat} {key : Nat} {t : DbTx} {b c : Attempt}
      (hw : s.worker w = ⟨se, .isolated queue i key (.settled t)⟩)
      (hold : s.db.row (.attempt i) = some b) (hnew : s'.db.row (.attempt i) = some c)
      (hsnap : t.snap.row (.attempt i) = some b) (hview : t.view (.attempt i) = some c)
      (hb : b.state.isOpen = true) (hc : c.state.isOpen = false) :
      AttemptChange s s' i (.settle w)
  /-- Its own run settled it. -/
  | own {w : W} {se : Option DbTx} {m key : Nat} {t : DbTx} {r : Request}
      (hw : s.worker w = ⟨se, .request m key (.answered t i r)⟩)
      (hnew : s'.db.row (.attempt i) = t.view (.attempt i)) : AttemptChange s s' i (.settle w)
  /-- Its run created it. -/
  | created {w : W} {se : Option DbTx} {m key : Nat} {t : DbTx} {r : Request}
      (hw : s.worker w = ⟨se, .request m key (.prepared t i r)⟩)
      (hnew : s'.db.row (.attempt i) = t.view (.attempt i)) : AttemptChange s s' i (.checkpoint w)

omit [DecidableEq W] in
theorem commit_changes {t : DbTx} (hs : Sound s) (hsc : Scoped s) (ht : Commits s a t)
    (hfit : t.fits s.db) (hdb : s'.db = s.db.apply t) (i : Nat) : AttemptChange s s' i a := by
  have hrow := apply_row_fits (ht.isolated_tx hs).follows hfit (.attempt i)
  rw [← hdb] at hrow
  rcases hrow with hrow | ⟨hsnap, hview⟩
  · exact .same hrow
  have hside : Side t → t.snap.row (.attempt i) = t.view (.attempt i) ∨ ∃ b c : Attempt,
      t.snap.row (.attempt i) = some b ∧ t.view (.attempt i) = some c ∧
        b.state.isOpen = true ∧ c.state.isOpen = false := by
    intro h
    have hi := h i
    generalize t.snap.row (.attempt i) = x at hi ⊢
    generalize t.view (.attempt i) = y at hi ⊢
    cases hi with
    | same => exact .inl rfl
    | closed hb hc => exact .inr ⟨_, _, rfl, rfl, hb, hc⟩
  have honly : ∀ j, Only t j → j ≠ i → AttemptChange s s' i a := by
    intro j ho hj
    refine .same ?_
    rw [hview, hsnap]
    exact ho (.attempt i) (by simpa using hj.symm) (by simp)
  cases ht with
  | session hw =>
    have hse := hsc.sessions _ _ (congrArg Worker.session hw)
    rcases hside hse with he | ⟨b, c, hb, hc, hopen, hclosed⟩
    · exact .same (by rw [hview, hsnap, he])
    · exact .session hw (hsnap.trans hb) (hview.trans hc) hb hc hopen hclosed
  | @checkpoint w se m key j t r hw =>
    by_cases hj : j = i
    · subst hj
      exact .created hw hview
    · exact honly j (job_scope hsc hw) hj
  | @settle w se m key j t r hw =>
    by_cases hj : j = i
    · subst hj
      exact .own hw hview
    · exact honly j (job_scope hsc hw) hj
  | @isolated w se queue j key t hw =>
    have hscope := job_scope hsc hw
    by_cases hj : j = i
    · subst hj
      rcases hside hscope.2 with he | ⟨b, c, hb, hc, hopen, hclosed⟩
      · exact .same (by rw [hview, hsnap, he])
      · exact .isolated hw (hsnap.trans hb) (hview.trans hc) hb hc hopen hclosed
    · exact honly j hscope.1 hj
  | ticket =>
    refine .same ?_
    rw [hview, ticketTx, write_view_ne _ _ (by simp)]
    rfl

theorem attempt_changes (hs : Sound s) (hsc : Scoped s) (h : Step P s a s') (i : Nat) :
    AttemptChange s s' i a := by
  rcases step_commits h with hdb | ⟨t, ht, hc⟩
  · exact .same (by rw [hdb])
  · obtain ⟨hfit, hdb, -⟩ := commitTx_spec hc
    exact commit_changes hs hsc ht hfit hdb i

/-- The attempt that a run is about to commit. -/
def Job.prepared? : Job → Option (DbTx × Nat)
  | .request _ _ (.prepared t i _) => some (t, i)
  | _ => none

theorem prepared_step {p : DbTx × Nat} (h : Step P s a s')
    (hp : (s'.worker w).job.prepared? = some p) :
    (s.worker w).job.prepared? = some p ∧ a.worker? ≠ some w ∨
      p.2 = s.nextAttempt ∧ ∃ reply, a = .lastAuthorized w reply := by
  rcases job_step h w with ⟨hne, hsame⟩ | ⟨-, hjob⟩
  · exact .inl ⟨hsame ▸ hp, hne⟩
  clear h
  generalize (s'.worker w).job = j' at hp hjob
  generalize (s.worker w).job = j at hjob ⊢
  cases hjob with
  | create h =>
    cases hp
    exact .inr ⟨rfl, _, rfl⟩
  | _ => cases hp

omit [DecidableEq W] in
theorem prepared_spec {job : Job} {t : DbTx} {i : Nat} (h : job.prepared? = some (t, i)) :
    ∃ m key r, job = .request m key (.prepared t i r) := by
  unfold Job.prepared? at h
  split at h
  · cases h
    exact ⟨_, _, _, rfl⟩
  · cases h

/-- The attempt of a run before its first checkpoint is not committed. -/
def Fresh (s : Sys W) : Prop :=
  ∀ w t i, (s.worker w).job.prepared? = some (t, i) → s.db.row (.attempt i) = none

theorem fresh_step (hs : Sound s) (hsc : Scoped s) (ho : OneOwner s) (hf : Fresh s)
    (h : Step P s a s') : Fresh s' := by
  intro w t i hp
  rcases prepared_step h hp with ⟨hold, hne⟩ | ⟨hi, reply, rfl⟩
  · have hnone := hf w t i hold
    obtain ⟨m, key, r, hw⟩ := prepared_spec hold
    cases attempt_changes hs hsc h i with
    | same hsame => rw [hsame, hnone]
    | session _ hrow | isolated _ hrow =>
      rw [hnone] at hrow
      cases hrow
    | own hw' =>
      obtain rfl := ho _ w i (by rw [hw']; rfl) (by rw [hw]; rfl)
      rw [hw'] at hw
      cases hw
    | created hw' =>
      obtain rfl := ho _ w i (by rw [hw']; rfl) (by rw [hw]; rfl)
      exact absurd rfl hne
  · obtain rfl : i = s.nextAttempt := hi
    have hnone := known_fresh hs.known
    rcases step_commits h with hdb | ⟨t, ht, -⟩
    · rw [hdb]
      exact hnone
    · cases ht

theorem reachable_fresh {ok : Sys W → Act W → Prop} (h : Reachable (system P) ok s) : Fresh s := by
  refine reachable_inv ?_ (fun _ _ _ hr _ hf h => fresh_step (reachable_sound hr)
    (reachable_scoped hr) (reachable_oneOwner hr) hf (step_cases h)) h
  intro s hi w t i hp
  rw [hi.workers w] at hp
  cases hp

/-! ## Attempts in play -/

section Play

variable {live : AttemptState → Bool}

/-- The attempt is in a live state, or its run has still to record its outcome. -/
def InPlay (live : AttemptState → Bool) (s : Sys W) (i : Nat) : Prop :=
  (s.db.row (.attempt i)).any (live ·.state) = true ∨ ∃ w, (s.worker w).job.running? = some i

instance [Fintype W] (s : Sys W) (i : Nat) : Decidable (InPlay live s i) :=
  inferInstanceAs (Decidable (_ ∨ ∃ w, (s.worker w).job.running? = some i))

/-- How an attempt came into play. -/
inductive PlayStep (live : AttemptState → Bool) (s : Sys W) (i : Nat) (b : Attempt) : Act W → Prop
  | kept {a : Act W} {c : Attempt} (hp : InPlay live s i) (hc : s.db.row (.attempt i) = some c)
      (hev : b.toEvidence = c.toEvidence) : PlayStep live s i b a
  | created {w : W} {m key : Nat} {t : DbTx} {r : Request} {c : Attempt}
      (hw : (s.worker w).job = .request m key (.prepared t i r))
      (hc : t.view (.attempt i) = some c) (hev : b.toEvidence = c.toEvidence) :
      PlayStep live s i b (.checkpoint w)

theorem play_step {i : Nat} {b : Attempt} (hlive : ∀ st, st.isOpen = true → live st = true)
    (hs : Sound s) (hsc : Scoped s) (hcom : Committed s) (h : Step P s a s')
    (hp : InPlay live s' i) (hb : s'.db.row (.attempt i) = some b) : PlayStep live s i b a := by
  have hkept : ∀ {c : Attempt}, s.db.row (.attempt i) = some c → InPlay live s i →
      PlayStep live s i b a := by
    intro c hc hp
    obtain ⟨c', hc', hev, -⟩ := (sound_onward hs h).later i c hc
    rw [hb] at hc'
    cases hc'
    exact .kept hp hc hev
  have hrunning : ∀ w, (s.worker w).job.running? = some i → PlayStep live s i b a := by
    intro w hw
    obtain ⟨c, hc⟩ := hcom w i hw
    exact hkept hc (.inr ⟨w, hw⟩)
  have hcreated : ∀ {w m key t r}, (s.worker w).job = .request m key (.prepared t i r) →
      s.commitTx t = some s'.db → a = .checkpoint w → PlayStep live s i b a := by
    rintro w m key t r hw hc rfl
    obtain ⟨ht, c, hview, -⟩ := prepared_attempt hs hw
    obtain ⟨c', hc', hev⟩ := commit_attempt ht hc hview
    rw [hb] at hc'
    cases hc'
    exact .created hw hview hev
  rcases hp with hst | ⟨w, hw⟩
  · rw [hb, Option.any_some] at hst
    cases attempt_changes hs hsc h i with
    | same hsame =>
      rw [hb] at hsame
      exact .kept (.inl (by rw [← hsame]; exact hst)) hsame.symm rfl
    | session hw hold hnew hsnap hview hopen | isolated hw hold hnew hsnap hview hopen =>
      exact hkept hold (.inl (by rw [hold, Option.any_some]; exact hlive _ hopen))
    | @own w se m key t r hw hnew => exact hrunning w (by rw [hw]; rfl)
    | @created w se m key t r hw hnew =>
      obtain ⟨-, c, hview, -⟩ := prepared_attempt hs (congrArg Worker.job hw)
      rw [hb, hview] at hnew
      cases hnew
      exact .created (congrArg Worker.job hw) hview rfl
  · rcases running_step h hw with hold | ⟨ha, m, key, t, r, hjob, hc⟩
    · exact hrunning w hold
    · exact hcreated hjob hc ha

end Play

end ArcaEdi
