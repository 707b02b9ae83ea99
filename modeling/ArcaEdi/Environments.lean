import Mathlib.Data.Fintype.Basic
import ArcaEdi.Log
import ArcaEdi.Issuers

/-!
# A certificate that moves to the other environment

The runs of the system, beside writes of `environment` on certificates. An attempt
records the environment of its request, and `_reconcile` reads it from the certificate.
-/

namespace ArcaEdi

namespace Environments

open Snapshot Runs

/-! ## Steps -/

def environmentIn (v : View) (k : Nat) : Environment := (v (.certificate k) : Certificate).environment

def writeTx (db : Db) (k : Nat) (environment : Environment) : DbTx :=
  (Tx.start db).write (.certificate k)
    { (db.row (.certificate k) : Certificate) with environment := environment }

/-- A write of `environment`, in a transaction of its own. -/
def write {W : Type} (s : Sys W) (k : Nat) (environment : Environment) : Option (Sys W) :=
  (s.commitTx (writeTx s.db k environment)).map fun db => { s with db := db }

/-- The actions of the system, and a write of an environment. -/
inductive Act (W : Type)
  | base (a : ArcaEdi.Act W)
  | write (k : Nat) (environment : Environment)

variable {W : Type} [DecidableEq W]

def step (P : Platform) (s : Sys W) : Act W → Option (Sys W)
  | .base a => ArcaEdi.step P s a
  | .write k environment => write s k environment

def system (P : Platform) : Runs.System (Sys W) (Act W) where
  init := Initial
  step := step P

/-! ## The condition -/

/-- A write that changes the environment finds no attempt of the certificate open or
still run. A run commits its attempt while the certificate is where the attempt says. -/
def keepsEnvironment (s : Sys W) : Act W → Prop
  | .write k environment => environmentIn s.db.row k = environment ∨ ∀ i < s.nextAttempt,
      InPlay AttemptState.isOpen s i → ∀ b ∈ s.db.row (.attempt i), b.certificateId ≠ some k
  | .base (.checkpoint w) => ∀ p ∈ (s.worker w).job.prepared?, ∀ b ∈ p.1.view (.attempt p.2),
      ∀ k ∈ b.certificateId, environmentIn s.db.row k = b.environment
  | .base _ => True

instance [Fintype W] (s : Sys W) (a : Act W) : Decidable (keepsEnvironment s a) :=
  match a with
  | .write k environment => inferInstanceAs (Decidable (environmentIn s.db.row k = environment ∨
      ∀ i < s.nextAttempt, InPlay AttemptState.isOpen s i →
        ∀ b ∈ s.db.row (.attempt i), b.certificateId ≠ some k))
  | .base (.checkpoint w) => inferInstanceAs (Decidable (∀ p ∈ (s.worker w).job.prepared?,
      ∀ b ∈ p.1.view (.attempt p.2), ∀ k ∈ b.certificateId,
        environmentIn s.db.row k = b.environment))
  | .base .tick | .base (.start _) | .base (.user _ _) | .base (.commit _) | .base (.rollback _)
  | .base (.request _ _) | .base (.enter _) | .base (.lastAuthorized _ _) | .base (.resume _)
  | .base (.sendFails _ _) | .base (.transmit _) | .base (.answer _ _ _)
  | .base (.reconcileMove _ _) | .base (.reconcileAttempts _ _) | .base (.search _ _)
  | .base (.isolate _) | .base (.consult _ _) | .base (.skip _) | .base (.settle _)
  | .base (.abort _) | .base (.kill _) | .base (.ticket _ _) | .base (.record _ _)
  | .base (.refuse _) | .base (.elsewhere _ _) => isTrue trivial

/-! ## What the code asks -/

/-- What `_reconcile` asks ARCA for. -/
def consulted (now : Nat) (p : DbTx × Nat) : Option Coordinates := do
  let (b, k) ← reconcileCertificate p.1.view p.2
  let (environment, cuit) ← Sys.auth now p.1.view k b.issuerCuit
  return ⟨⟨environment, cuit, b.posNumber, b.documentTypeCode⟩, b.documentNumber⟩

/-- Each reconciliation asks in the environment that its attempt records, and that is
where the attempt's request was sent. -/
def AsksWhereSent (s : Sys W) : Prop :=
  ∀ w p c, (s.worker w).target? = some p → consulted s.clock p = some c →
    (∀ b ∈ p.1.view (.attempt p.2), c.line.environment = b.environment) ∧
    ∀ t ∈ s.arca.sent, t.attempt = p.2 → t.environment = c.line.environment

/-! ## The environments of a view -/

/-- Every open attempt is of the environment that its certificate points to. -/
def OpenBound (v : View) : Prop :=
  ∀ i b k, v (.attempt i) = some b → b.state.isOpen = true → b.certificateId = some k →
    environmentIn v k = b.environment

/-- The transaction moves no certificate to another environment. -/
def Unmoved (t : DbTx) : Prop := ∀ k, environmentIn t.view k = environmentIn t.snap.row k

/-- A run that is about to send its request, or waits for the answer. -/
def sending? : Job → Option (DbTx × Nat × Request)
  | .request _ _ (.sending t i r) | .request _ _ (.awaiting t i r) => some (t, i, r)
  | _ => none

structure Bound (s : Sys W) : Prop where
  sound : Sound s
  scope : Scoped s
  committed : Committed s
  unmoved : ∀ t, Live s t → Unmoved t
  views : ∀ t, Live s t → OpenBound t.view
  play : ∀ i b k, InPlay AttemptState.isOpen s i → s.db.row (.attempt i) = some b →
    b.certificateId = some k → environmentIn s.db.row k = b.environment
  sending : ∀ w t i r, sending? (s.worker w).job = some (t, i, r) →
    ∀ b, t.view (.attempt i) = some b → environmentIn t.view r.certificateId = b.environment
  sent : ∀ t ∈ s.arca.sent, ∃ b : Attempt, s.db.row (.attempt t.attempt) = some b ∧
    b.environment = t.environment

variable {P : Platform} {s s' : Sys W} {a : ArcaEdi.Act W} {t t' : DbTx} {i k : Nat} {b : Attempt}

omit [DecidableEq W] in
theorem writes_environment (hs : Sound s) (hw : Writes P s a t t') (k : Nat) :
    environmentIn t'.view k = environmentIn t.view k := by
  have hchain := writes_certificate hs hw k
  unfold environmentIn
  generalize (t'.view (.certificate k) : Certificate) = c at hchain ⊢
  induction hchain with
  | refl => rfl
  | tail _ hc ih => exact (certificateWrite_environment hc).trans ih

omit [DecidableEq W] in
theorem ticketTx_environment (db : Db) (j : Nat) (new : Ticket) (k : Nat) :
    environmentIn (ticketTx db j new).view k = environmentIn db.row k := by
  unfold environmentIn ticketTx
  by_cases hk : k = j
  · subst hk
    rw [write_view_self]
    rfl
  · rw [write_view_ne _ _ (by simpa using hk)]
    rfl

omit [DecidableEq W] in
theorem commits_unmoved (hb : Bound s) (h : Commits s a t) : Unmoved t := by
  cases h with
  | session hw => exact hb.unmoved _ (live_session (congrArg Worker.session hw))
  | checkpoint hw | settle hw | isolated hw => exact hb.unmoved _ (live_work hw rfl)
  | ticket => exact ticketTx_environment s.db _ _

theorem step_environment (hb : Bound s) (h : Step P s a s') (k : Nat) :
    environmentIn s'.db.row k = environmentIn s.db.row k := by
  rcases step_commits h with hdb | ⟨t, ht, hc⟩
  · rw [hdb]
  · unfold environmentIn
    rcases commit_row (ht.isolated_tx hb.sound) hc (.certificate k) with hrow | ⟨hsnap, hview⟩
    · rw [hrow]
    · rw [hview, hsnap]
      exact commits_unmoved hb ht k

/-! ## Steps of the code -/

section Steps

omit [DecidableEq W]

theorem openBound_start (hb : Bound s) : OpenBound s.db.row := by
  intro i b k hrow hopen hk
  exact hb.play i b k (.inl (by rw [hrow, Option.any_some]; exact hopen)) hrow hk

theorem openBound_ticket (hb : Bound s) (j : Nat) (new : Ticket) :
    OpenBound (ticketTx s.db j new).view := by
  intro i b k hview
  rw [ticketTx_environment]
  rw [ticketTx, write_view_ne _ _ (by simp)] at hview
  exact openBound_start hb i b k hview

theorem finishes_sending {w : W} {m key : Nat} {r : Request} {stage : Stage}
    {result : Except Exn CaeResult} (h : Finishes s w t i r a stage result) :
    sending? (.request m key stage) = some (t, i, r) := by
  cases h <;> rfl

theorem writes_unmoved (hs : Sound s) (hw : Writes P s a t t') (h : Unmoved t) : Unmoved t' := by
  intro k
  rw [writes_environment hs hw, writes_snap hs hw]
  exact h k

theorem writes_openBound (hb : Bound s) (hw : Writes P s a t t') (h : OpenBound t.view) :
    OpenBound t'.view := by
  intro i b k hview hopen hk
  rw [writes_environment hb.sound hw]
  rcases writes_attempt hb.sound hw hview with hold | hnew
  · exact h i b k hold hopen hk
  cases hnew with
  | create hw hreq =>
    cases hk
    rfl
  | @outcome a w se m key i r stage result c _ st hw' hf hold hd hev hout hc =>
    have hsending := hb.sending w t i r (by rw [hw']; exact finishes_sending hf) c hold
    have hcert : b.certificateId = some r.certificateId := by
      rw [hev]
      exact hd.certificate
    rw [hk] at hcert
    cases hcert
    rw [hsending, hev]
  | reconcile hw' hr =>
    rw [hr.evidence] at hk ⊢
    exact h i _ k hr.view hr.isOpen hk

end Steps

theorem transactions_step (hb : Bound s) (h : Step P s a s') :
    ∀ t, Live s' t → Unmoved t ∧ OpenBound t.view := by
  refine (views_step (D := fun _ => True) (T := fun t => Unmoved t ∧ OpenBound t.view) hb.sound h
    ⟨fun _ => rfl, openBound_start hb⟩ ?_ ?_ (fun _ _ _ _ => trivial) trivial ?_).2
  · exact fun k new => ⟨ticketTx_environment s.db k new, openBound_ticket hb k new⟩
  · exact fun t t' hw ht => ⟨writes_unmoved hb.sound hw ht.1, writes_openBound hb hw ht.2⟩
  · exact fun t ht => ⟨hb.unmoved t ht, hb.views t ht⟩

theorem play_bound (hb : Bound s) (hok : keepsEnvironment s (.base a)) (h : Step P s a s')
    (hp : InPlay AttemptState.isOpen s' i) (hrow : s'.db.row (.attempt i) = some b)
    (hk : b.certificateId = some k) : environmentIn s'.db.row k = b.environment := by
  rw [step_environment hb h]
  cases play_step (fun _ => id) hb.sound hb.scope hb.committed h hp hrow with
  | kept hp hc hev =>
    rw [hev] at hk ⊢
    exact hb.play i _ k hp hc hk
  | @created w m key t r c hw hc hev =>
    rw [hev] at hk ⊢
    exact hok (t, i) (by rw [hw]; rfl) c hc k hk

theorem sending_step {w : W} {r : Request} (hb : Bound s) (h : Step P s a s')
    (hw : sending? (s'.worker w).job = some (t, i, r)) (hview : t.view (.attempt i) = some b) :
    environmentIn t.view r.certificateId = b.environment := by
  have hold := hb.sending w
  have hsound := hb.sound.jobs w
  have hplay : (s.worker w).job.running? = some i → InPlay AttemptState.isOpen s i :=
    fun h => .inr ⟨w, h⟩
  rcases job_step h w with ⟨-, hsame⟩ | ⟨-, hjob⟩
  · exact hold t i r (hsame ▸ hw) b hview
  clear h
  generalize (s'.worker w).job = j' at hw hjob
  generalize (s.worker w).job = j at hold hsound hplay hjob
  cases hjob with
  | resume =>
    cases hw
    obtain ⟨c, hc, hd⟩ := hsound
    have hbc : b = c := Option.some.inj (hview.symm.trans hc)
    subst hbc
    exact hb.play i b _ (hplay rfl) hview hd.certificate
  | transmit => exact hold t i r hw b hview
  | _ => cases hw

theorem sent_bound (hb : Bound s) (h : Step P s a s') :
    ∀ t ∈ s'.arca.sent, ∃ b : Attempt, s'.db.row (.attempt t.attempt) = some b ∧
      b.environment = t.environment := by
  intro t ht
  have hlater : ∀ i, (∃ c : Attempt, s.db.row (.attempt i) = some c ∧
      c.environment = t.environment) →
      ∃ c : Attempt, s'.db.row (.attempt i) = some c ∧ c.environment = t.environment := by
    rintro i ⟨c, hc, henv⟩
    obtain ⟨c', hc', hev, -⟩ := (sound_onward hb.sound h).later i c hc
    exact ⟨c', hc', by rw [hev]; exact henv⟩
  refine hlater _ ?_
  cases sent_step h ht with
  | kept hu => exact hb.sent _ hu
  | recorded hu | refused hu =>
    obtain ⟨c, hc, henv⟩ := hb.sent _ hu
    exact ⟨c, hc, henv⟩
  | @transmit w se m key i tx r env cuit hw ha =>
    obtain ⟨hclean, b, hview, -⟩ := job_sound hb.sound hw
    have hsending := hb.sending w tx i r (by rw [hw]; rfl) b hview
    obtain ⟨-, henv, -⟩ := auth_spec ha
    obtain ⟨c, hc, hev, -⟩ := (hb.sound.isolated tx (live_work hw rfl)).since i b
      (congrFun hclean _ ▸ hview)
    refine ⟨c, hc, ?_⟩
    rw [hev, ← hsending]
    exact henv

theorem bound_step (hb : Bound s) (hok : keepsEnvironment s (.base a)) (h : Step P s a s') :
    Bound s' where
  sound := sound_step hb.sound h
  scope := scoped_step hb.sound hb.scope h
  committed := committed_step hb.sound hb.committed h
  unmoved t ht := (transactions_step hb h t ht).1
  views t ht := (transactions_step hb h t ht).2
  play _ _ _ hp hrow hk := play_bound hb hok h hp hrow hk
  sending _ _ _ _ hw _ hview := sending_step hb h hw hview
  sent := sent_bound hb h

/-! ## Writes -/

section Writes

variable {environment : Environment} {db : Db}

omit [DecidableEq W] in
theorem writeTx_row (h : s.commitTx (writeTx s.db k environment) = some db) :
    db.row = (writeTx s.db k environment).view := by
  obtain ⟨-, rfl, -⟩ := commitTx_spec h
  exact apply_latest rfl

omit [DecidableEq W] in
theorem writeTx_attempt (h : s.commitTx (writeTx s.db k environment) = some db) (i : Nat) :
    db.row (.attempt i) = s.db.row (.attempt i) := by
  rw [writeTx_row h, writeTx, write_view_ne _ _ (by simp)]
  rfl

omit [DecidableEq W] in
theorem writeTx_environment (h : s.commitTx (writeTx s.db k environment) = some db) {j : Nat}
    (hj : j = k → environmentIn s.db.row k = environment) :
    environmentIn db.row j = environmentIn s.db.row j := by
  rw [writeTx_row h]
  unfold environmentIn writeTx
  by_cases hjk : j = k
  · subst hjk
    rw [write_view_self]
    exact (hj rfl).symm
  · rw [write_view_ne _ _ (by simpa using hjk)]
    rfl

omit [DecidableEq W] in
theorem bound_write (hb : Bound s) (hok : keepsEnvironment s (.write k environment))
    (h : s.commitTx (writeTx s.db k environment) = some db) : Bound { s with db := db } := by
  have hattempts := writeTx_attempt h
  have honward : Onward s { s with db := db } := onward_commit hb.sound
    (isolated_write (isolated_start hb.sound.known) (by simp)) h (Nat.le_refl _)
  refine ⟨⟨honward.known, ?_, ?_⟩, ⟨hb.scope.sessions, hb.scope.jobs⟩, ?_, hb.unmoved, hb.views, ?_,
    hb.sending, ?_⟩
  · exact fun t ht => isolated_mono (hb.sound.isolated t ht) honward.follows honward.later
      (Nat.le_refl _)
  · exact fun w => job_sound_later (hb.sound.jobs w) honward.later
  · intro w i hi
    obtain ⟨b, hrow⟩ := hb.committed w i hi
    exact ⟨b, (hattempts i).trans hrow⟩
  · intro i b j hp hrow hj
    have hrow' : s.db.row (.attempt i) = some b := (hattempts i).symm.trans hrow
    have hp' : InPlay AttemptState.isOpen s i := by
      unfold InPlay at hp ⊢
      rwa [hattempts i] at hp
    rw [← hb.play i b j hp' hrow' hj]
    refine writeTx_environment h ?_
    rintro rfl
    rcases hok with hsame | hfree
    · exact hsame
    · exact absurd hj (hfree i (hb.sound.known i b hrow').1 hp' b hrow')
  · intro t ht
    obtain ⟨b, hrow, henv⟩ := hb.sent t ht
    exact ⟨b, (hattempts _).trans hrow, henv⟩

end Writes

/-! ## Every run -/

omit [DecidableEq W] in
theorem initial_bound (hi : Initial s) : Bound s where
  sound := initial_sound hi
  scope := initial_scoped hi
  committed w i hw := by
    rw [hi.workers w] at hw
    cases hw
  unmoved t ht := absurd ht (initial_not_live hi t)
  views t ht := absurd ht (initial_not_live hi t)
  play i b k _ hrow := by
    rw [hi.attempts i] at hrow
    cases hrow
  sending w t i r hw := by
    rw [hi.workers w] at hw
    cases hw
  sent t ht := by
    rw [hi.sent] at ht
    cases ht

theorem reachable_bound (h : Reachable (system P) keepsEnvironment s) : Bound s := by
  refine reachable_inv (fun _ => initial_bound) ?_ h
  intro s a s' _ hok hb hstep
  cases a with
  | base a => exact bound_step hb hok (step_cases hstep)
  | write k environment =>
    obtain ⟨db, hdb, rfl⟩ := Option.map_eq_some_iff.mp hstep
    exact bound_write hb hok hdb

omit [DecidableEq W] in
theorem consulted_spec {now : Nat} {p : DbTx × Nat} {c : Coordinates} (h : consulted now p = some c) :
    ∃ (b : Attempt) (k : Nat), p.1.view (.attempt p.2) = some b ∧ b.state.isOpen = true ∧
      b.certificateId = some k ∧ environmentIn p.1.view k = c.line.environment := by
  obtain ⟨⟨b, k⟩, hcert, h⟩ := Option.bind_eq_some_iff.mp h
  obtain ⟨⟨environment, cuit⟩, hauth, heq⟩ := Option.bind_eq_some_iff.mp h
  obtain ⟨hview, hopen, hk⟩ := reconcileCertificate_spec hcert
  cases heq
  exact ⟨b, k, hview, hopen, hk, (auth_spec hauth).2.1⟩

omit [DecidableEq W] in
theorem bound_asks (hb : Bound s) : AsksWhereSent s := by
  rintro w ⟨t, i⟩ c hw hc
  obtain ⟨b, k, hview, hopen, hk, henv⟩ := consulted_spec hc
  have hlive : Live s t := live_of_target hw
  have hasked : c.line.environment = b.environment :=
    henv.symm.trans (hb.views t hlive i b k hview hopen hk)
  refine ⟨fun b' hb' => ?_, fun u hu hui => ?_⟩
  · rw [hasked, Option.some.inj (hview.symm.trans hb')]
  · obtain ⟨d, hd, hdev⟩ := side_evidence (target_side hb.scope hw) (hb.sound.isolated t hlive) hview
    obtain ⟨e, he, heenv⟩ := hb.sent u hu
    rw [hui, hd] at he
    cases he
    rw [hasked, ← heenv, hdev]

end Environments

open Runs

/-! ## Both bindings -/

/-- In every run whose steps meet the conditions, each call carries a ticket of the
environment that it goes to, and each reconciliation asks where the request was sent. -/
theorem environment_bound {W : Type} [DecidableEq W] (P Q : Platform) :
    (∀ s : Registry.Recorded W, Reachable (Registry.recordedSystem P) Registry.keepsIssuer s →
      ∀ call ∈ s.calls, call ∈ s.grants) ∧
    ∀ s : Sys W, Reachable (Environments.system Q) Environments.keepsEnvironment s →
      Environments.AsksWhereSent s :=
  ⟨fun _ hs => (Registry.reachable_bound hs).calls,
    fun _ hs => Environments.bound_asks (Environments.reachable_bound hs)⟩

namespace Office

/-- A worker is about to ask in one environment about an attempt that records another. -/
def asksIn (w : Fin 3) (asked recorded : Environment) (s : Sys (Fin 3)) : Bool :=
  (s.worker w).target?.any fun p =>
    (Environments.consulted s.clock p).any (·.line.environment == asked) &&
      (p.1.view (.attempt p.2)).any (·.environment == recorded)

theorem asksIn_spec {w : Fin 3} {asked recorded : Environment} {s : Sys (Fin 3)}
    (h : asksIn w asked recorded s = true) : ∃ p c b, (s.worker w).target? = some p ∧
      Environments.consulted s.clock p = some c ∧ p.1.view (.attempt p.2) = some b ∧
      c.line.environment = asked ∧ b.environment = recorded := by
  obtain ⟨p, hp, h⟩ := (Option.any_eq_true _ _).mp h
  rw [Bool.and_eq_true] at h
  obtain ⟨c, hc, hasked⟩ := (Option.any_eq_true _ _).mp h.1
  obtain ⟨b, hb, hrecorded⟩ := (Option.any_eq_true _ _).mp h.2
  exact ⟨p, c, b, hp, hc, hb, beq_iff_eq.mp hasked, beq_iff_eq.mp hrecorded⟩

/-- Invoice 0 is sent, and the answer is lost. -/
def answerLost (w : Fin 3) : List (Environments.Act (Fin 3)) :=
  (posted 0 0 ++ recorded w 0 0 ++ lost w).map .base

def asking (w : Fin 3) : List (Environments.Act (Fin 3)) :=
  [.base (.start w), .base (.reconcileAttempts w [0])]

end Office

theorem environment_bound_moved :
    (∃ s : Registry.Recorded (Fin 2),
      s.calls = [(.production, Registry.Office.ticket), (.production, Registry.Office.ticket)] ∧
      ∀ call ∈ s.calls, call ∈ s.grants) ∧
    ∃ s : Sys (Fin 3), Office.asksIn 1 .production .production s = true ∧
      Environments.AsksWhereSent s := by
  obtain ⟨r, hr, hcalls⟩ := Registry.Office.movedBefore_calls
  have hrun : (run (Environments.system Office.platform) Environments.keepsEnvironment Office.initial
      (.write 0 .production :: Office.answerLost 0 ++ Office.asking 1)).any
      (Office.asksIn 1 .production .production) = true := by
    decide +kernel
  obtain ⟨s, hs, hasks⟩ := run_reaches Office.initial_initial hrun
  exact ⟨⟨r, hcalls, (environment_bound Registry.Office.platform Office.platform).1 r hr⟩,
    s, hasks, (environment_bound Registry.Office.platform Office.platform).2 s hs⟩

/-- A certificate moves to production. A ticket of testing goes to production, and
production is asked about a request that was sent to testing. -/
theorem environment_unbound :
    (∃ s : Registry.Recorded (Fin 2),
      Reachable (Registry.recordedSystem Registry.Office.platform) Always s ∧
      ¬ ∀ call ∈ s.calls, call ∈ s.grants) ∧
    ∃ s : Sys (Fin 3), Reachable (Environments.system Office.platform) Always s ∧
      ¬ Environments.AsksWhereSent s := by
  obtain ⟨r, hr, hcall, hgrant⟩ := Registry.Office.movedAfter_calls
  have hrun : (run (Environments.system Office.platform) Always Office.initial
      (Office.answerLost 0 ++ .write 0 .production :: Office.asking 1)).any
      (Office.asksIn 1 .production .testing) = true := by
    decide +kernel
  obtain ⟨s, hs, hasks⟩ := run_reaches Office.initial_initial hrun
  obtain ⟨p, c, b, hp, hc, hb, hasked, hrecorded⟩ := Office.asksIn_spec hasks
  refine ⟨⟨r, hr, fun hall => hgrant (hall _ hcall)⟩, s, hs, fun hall => ?_⟩
  have hsame := (hall 1 p c hp hc).1 b hb
  rw [hasked, hrecorded] at hsame
  cases hsame

end ArcaEdi
