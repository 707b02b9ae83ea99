import Mathlib.Data.Fintype.Basic
import ArcaEdi.Log
import ArcaEdi.Caller

/-!
# The ways to a request

The button, the cron, and the callback that `_post` leaves for after the commit.
Each ends in `_l10n_ar_arca_request_cae`, with whatever its session has pending.
-/

namespace ArcaEdi.Routes

open Snapshot Runs

/-! ## States -/

/-- The system, with what waits for a commit and what a cron has still to do. -/
structure Sys (W : Type) where
  base : ArcaEdi.Sys W
  /-- The invoices in `cr.postcommit` of the open session. -/
  postcommit : W → List Nat
  /-- The invoices of a committed session whose callbacks are still to run. -/
  callbacks : W → List Nat
  /-- What the search of the cron found, and the loop has not come to. -/
  pending : W → List Nat

/-- `auto_moves`, for one invoice. `auto` is the flag of its company. -/
def autoMoves (v : View) (m : Nat) (auto : Bool) : List Nat :=
  if isEdi v m && auto && (v (.move m) : Move).arcaState == .pending then [m] else []

/-- The search of `_cron_l10n_ar_arca_authorize_pending`. The invoices come in
the order `invoice_date asc, name asc`. -/
def searchPending (v : View) (moves : List Nat) (limit : Nat) : List Nat :=
  (moves.filter fun m =>
    (v (.move m) : Move).arcaState == .pending && (v (.move m) : Move).state == .posted).take limit

namespace Sys

variable {W : Type} [DecidableEq W]

/-- What Odoo does with the callbacks when a session ends: a commit runs them,
and a rollback drops them. -/
def follow (s : Sys W) (a : ArcaEdi.Act W) (base : ArcaEdi.Sys W) : Sys W where
  base := base
  postcommit w := if (base.worker w).session.isNone then [] else s.postcommit w
  callbacks :=
    match a with
    | .commit w =>
      if ((s.base.worker w).session.bind s.base.commitTx).isSome then
        Function.update s.callbacks w (s.callbacks w ++ s.postcommit w)
      else s.callbacks
    | .kill w => Function.update s.callbacks w []
    | _ => s.callbacks
  pending w := if (base.worker w).session.isNone then [] else s.pending w

/-- `_post` -/
def post (P : Platform) (s : Sys W) (w : W) (m : Nat) (number : Option DocumentNumber)
    (auto : Bool) : Option (Sys W) :=
  let a : ArcaEdi.Act W := .user w (.posting m number)
  (ArcaEdi.step P s.base a).map fun base =>
    let s' := s.follow a base
    match (base.worker w).session with
    | some t =>
      { s' with
        postcommit := Function.update s'.postcommit w (s'.postcommit w ++ autoMoves t.view m auto) }
    | none => s'

/-- `action_l10n_ar_arca_authorize` -/
def button (P : Platform) (s : Sys W) (w : W) (m : Nat) : Option (Sys W) :=
  (s.base.request P w m).map fun base => { s with base := base }

/-- One invoice of a loop. What it raises is logged, and the loop goes on. -/
def dispatch (P : Platform) (s : Sys W) (w : W) (m : Nat) : Sys W :=
  match s.base.request P w m with
  | some base => { s with base := base }
  | none => s

/-- `_run` -/
def callback (P : Platform) (s : Sys W) (w : W) : Option (Sys W) :=
  match s.base.worker w, s.callbacks w with
  | ⟨some _, .idle⟩, m :: rest =>
    some ({ s with callbacks := Function.update s.callbacks w rest }.dispatch P w m)
  | _, _ => none

/-- `_cron_l10n_ar_arca_authorize_pending`, up to its loop. -/
def search (s : Sys W) (w : W) (moves : List Nat) (limit : Nat) : Option (Sys W) :=
  match s.base.worker w with
  | ⟨some t, .idle⟩ =>
    some { s with pending := Function.update s.pending w (searchPending t.view moves limit) }
  | _ => none

/-- One invoice of the loop of the cron. -/
def cron (P : Platform) (s : Sys W) (w : W) : Option (Sys W) :=
  match s.base.worker w, s.pending w with
  | ⟨some t, .idle⟩, m :: rest =>
    let s' := { s with pending := Function.update s.pending w rest }
    some (if isEdi t.view m then s'.dispatch P w m else s')
  | _, _ => none

end Sys

/-! ## Steps -/

/-- The routes by which an invoice comes to be requested. -/
inductive Act (W : Type)
  /-- What is not one of the routes, nor a posting. -/
  | base (a : ArcaEdi.Act W)
  | post (w : W) (m : Nat) (number : Option DocumentNumber) (auto : Bool)
  | button (w : W) (m : Nat)
  | callback (w : W)
  | search (w : W) (moves : List Nat) (limit : Nat)
  | cron (w : W)

/-- The actions that a route stands for. -/
def routed {W : Type} : ArcaEdi.Act W → Bool
  | .request _ _ | .user _ (.posting _ _) => true
  | _ => false

variable {W : Type} [DecidableEq W]

/-- A route is one of the actions below, at its own time. -/
def step (P : Platform) (s : Sys W) : Act W → Option (Sys W)
  | .base a => if routed a then none else (ArcaEdi.step P s.base a).map (s.follow a)
  | .post w m number auto => s.post P w m number auto
  | .button w m => s.button P w m
  | .callback w => s.callback P w
  | .search w moves limit => s.search w moves limit
  | .cron w => s.cron P w

structure Initial (s : Sys W) : Prop where
  base : ArcaEdi.Initial s.base
  postcommit : ∀ w, s.postcommit w = []
  callbacks : ∀ w, s.callbacks w = []

def system (P : Platform) : Runs.System (Sys W) (Act W) where
  init := Initial
  step := step P

variable {P : Platform} {s s' u : Sys W} {a : Act W} {w : W} {m : Nat}

/-! ## What a step can do -/

/-- The loops go on, and nothing else changes. -/
structure Looped (s s' : Sys W) : Prop where
  base : s'.base = s.base
  postcommit : s'.postcommit = s.postcommit
  callbacks : ∀ w, ∀ m ∈ s'.callbacks w, m ∈ s.callbacks w

inductive Step (P : Platform) (s : Sys W) : Act W → Sys W → Prop
  | base {a : ArcaEdi.Act W} {base : ArcaEdi.Sys W} (h : ArcaEdi.step P s.base a = some base) :
      Step P s (.base a) (s.follow a base)
  | post {w : W} {m : Nat} {number : Option DocumentNumber} {auto : Bool} {base : ArcaEdi.Sys W}
      {s' : Sys W} (h : ArcaEdi.step P s.base (.user w (.posting m number)) = some base)
      (hbase : s'.base = base) (hcallbacks : s'.callbacks = s.callbacks)
      (hposted : ∀ w', ∀ m' ∈ s'.postcommit w',
        (base.worker w').session ≠ none ∧ (m' ∈ s.postcommit w' ∨ w' = w ∧ m' = m)) :
      Step P s (.post w m number auto) s'
  | request {a : Act W} {w : W} {m : Nat} {u : Sys W} {base : ArcaEdi.Sys W} (hu : Looped s u)
      (hr : s.base.request P w m = some base) : Step P s a { u with base := base }
  | loop {a : Act W} {s' : Sys W} (hs : Looped s s') : Step P s a s'

omit [DecidableEq W] in
theorem looped_refl (s : Sys W) : Looped s s := ⟨rfl, rfl, fun _ _ hm => hm⟩

theorem looped_callbacks {rest : List Nat} (h : s.callbacks w = m :: rest) :
    Looped s { s with callbacks := Function.update s.callbacks w rest } := by
  refine ⟨rfl, rfl, fun w' m' hm => ?_⟩
  dsimp only at hm
  by_cases hw : w' = w
  · subst hw
    rw [Function.update_self] at hm
    rw [h]
    exact List.mem_cons_of_mem _ hm
  · rwa [Function.update_of_ne hw] at hm

theorem follow_postcommit {b : ArcaEdi.Act W} {base : ArcaEdi.Sys W}
    (hm : m ∈ (s.follow b base).postcommit w) :
    (base.worker w).session ≠ none ∧ m ∈ s.postcommit w := by
  dsimp only [Sys.follow] at hm
  split at hm
  · cases hm
  · next hsome => exact ⟨by simpa using hsome, hm⟩

theorem mem_autoMoves {v : View} {m m' : Nat} {auto : Bool} (h : m' ∈ autoMoves v m auto) :
    m' = m := by
  unfold autoMoves at h
  split at h
  · exact List.mem_singleton.mp h
  · cases h

theorem dispatch_step (hu : Looped s u) : Step P s a (u.dispatch P w m) := by
  unfold Sys.dispatch
  split
  · next base hr =>
    rw [hu.base] at hr
    exact .request hu hr
  · exact .loop hu

theorem step_cases (h : step P s a = some s') : Step P s a s' := by
  cases a with
  | base a =>
    simp only [step] at h
    split at h
    · cases h
    · obtain ⟨base, hbase, rfl⟩ := Option.map_eq_some_iff.mp h
      exact .base hbase
  | post w m number auto =>
    obtain ⟨base, hbase, rfl⟩ := Option.map_eq_some_iff.mp h
    split
    · next t ht =>
      refine .post hbase rfl rfl fun w' m' hm => ?_
      dsimp only at hm
      by_cases hw : w' = w
      · subst hw
        rw [Function.update_self, List.mem_append] at hm
        rcases hm with hm | hm
        · obtain ⟨hsome, hm⟩ := follow_postcommit hm
          exact ⟨hsome, .inl hm⟩
        · exact ⟨by simp [ht], .inr ⟨rfl, mem_autoMoves hm⟩⟩
      · rw [Function.update_of_ne hw] at hm
        obtain ⟨hsome, hm⟩ := follow_postcommit hm
        exact ⟨hsome, .inl hm⟩
    · refine .post hbase rfl rfl fun w' m' hm => ?_
      obtain ⟨hsome, hm⟩ := follow_postcommit hm
      exact ⟨hsome, .inl hm⟩
  | button w m =>
    obtain ⟨base, hbase, rfl⟩ := Option.map_eq_some_iff.mp h
    exact .request (looped_refl s) hbase
  | callback w =>
    simp only [step, Sys.callback] at h
    split at h
    · next hcallbacks =>
      cases h
      exact dispatch_step (looped_callbacks hcallbacks)
    · cases h
  | search w moves limit =>
    simp only [step, Sys.search] at h
    split at h <;> cases h
    exact .loop ⟨rfl, rfl, fun _ _ hm => hm⟩
  | cron w =>
    simp only [step, Sys.cron] at h
    split at h
    · next rest _ _ =>
      cases h
      have hu : Looped s { s with pending := Function.update s.pending w rest } :=
        ⟨rfl, rfl, fun _ _ hm => hm⟩
      split
      · exact dispatch_step hu
      · exact .loop hu
    · cases h

theorem base_step (h : Step P s a s') :
    s'.base = s.base ∨ ∃ b, ArcaEdi.step P s.base b = some s'.base ∧
      ∀ w, b = .transmit w → a = .base (.transmit w) ∧ s' = s.follow b s'.base := by
  cases h with
  | base h =>
    refine .inr ⟨_, h, fun w hb => ?_⟩
    rw [hb]
    exact ⟨rfl, rfl⟩
  | post h hbase =>
    rw [hbase]
    exact .inr ⟨_, h, nofun⟩
  | request hu hr => exact .inr ⟨.request _ _, hr, nofun⟩
  | loop hs => exact .inl hs.base

theorem reachable_base (h : Reachable (system P) Always s) :
    Reachable (ArcaEdi.system P) Always s.base := by
  induction h with
  | init h => exact .init h.base
  | step _ _ hs ih =>
    rcases base_step (step_cases hs) with hsame | ⟨b, hb, -⟩
    · exact hsame ▸ ih
    · exact .step ih trivial hb

/-! ## Where a request comes from -/

/-- The invoice is posted, it goes through ARCA, and it may be asked for. -/
structure Ready (v : View) (m : Nat) : Prop where
  posted : (v (.move m) : Move).state = .posted
  edi : isEdi v m = true
  state : (v (.move m) : Move).arcaState = .pending ∨ (v (.move m) : Move).arcaState = .rejected

omit [DecidableEq W] in
theorem ready_of_check {v : View} (h : checkReady v m = .ok ()) : Ready v m := by
  obtain ⟨hposted, hstate⟩ := checkReady_spec h
  unfold checkReady at h
  simp only [Raise.check_eq_ok] at h
  exact ⟨hposted, by simpa using h.2.1, hstate⟩

def Holding (w : W) (key : Nat) (s : Sys W) (_ : Act W) : Prop := s.base.locks key = some w

/-- At `s₀` the worker held the lock, and the database had the invoice ready. It
has held the lock from there on. -/
structure Began (P : Platform) (w : W) (m key : Nat) (s₀ s : Sys W) : Prop where
  reachable : Reachable (system P) Always s₀
  held : s₀.base.locks key = some w
  ready : Ready s₀.base.db.row m
  leads : Leads (system P) (Holding w key) s₀ s

/-- Every request at work came by one of the routes. -/
def Traced (P : Platform) (s : Sys W) : Prop :=
  ∀ w m key stage, (s.base.worker w).job = .request m key stage → stage ≠ .locked →
    ∃ s₀, Began P w m key s₀ s

omit [DecidableEq W] in
theorem request_jobStep {b : ArcaEdi.Act W} {t t' : ArcaEdi.Sys W} {job : Job} {key : Nat}
    {stage : Stage} (h : JobStep P t t' w b job (.request m key stage)) (hst : stage ≠ .locked) :
    (job = .request m key .locked ∧ ∃ c, authorizeStart t.clock t.db.row m = .ok c) ∨
      ∃ before, before ≠ .locked ∧ job = .request m key before := by
  cases h with
  | request => exact absurd rfl hst
  | enter h => exact .inl ⟨rfl, _, h⟩
  | outcome hf => exact .inr ⟨_, by cases hf <;> nofun, rfl⟩
  | create | checkpoint | resume | transmit => exact .inr ⟨_, by nofun, rfl⟩

theorem traced_step (hr : Reachable (system P) Always s) (ht : Traced P s)
    (h : step P s a = some s') : Traced P s' := by
  intro w m key stage hjob hst
  have hlocked := reachable_locked (reachable_base hr)
  have hkeep : ∀ before, (s.base.worker w).job = .request m key before → before ≠ .locked →
      ∃ s₀, Began P w m key s₀ s' := by
    intro before hbefore hne
    obtain ⟨s₀, h₀⟩ := ht w m key before hbefore hne
    exact ⟨s₀, h₀.reachable, h₀.held, h₀.ready, .step h₀.leads (hlocked w key (by rw [hbefore]; rfl)) h⟩
  rcases base_step (step_cases h) with hsame | ⟨b, hb, -⟩
  · exact hkeep stage (hsame ▸ hjob) hst
  rcases job_step (ArcaEdi.step_cases hb) w with ⟨-, hsame⟩ | ⟨-, hstep⟩
  · exact hkeep stage (hsame ▸ hjob) hst
  rw [hjob] at hstep
  rcases request_jobStep hstep hst with ⟨hbefore, c, hstart⟩ | ⟨before, hne, hbefore⟩
  · -- The first query: the snapshot is the database, and the lock is held.
    have hheld : s.base.locks key = some w := hlocked w key (by rw [hbefore]; rfl)
    exact ⟨s, hr, hheld, ready_of_check (authorizeStart_spec hstart).1, .step .refl hheld h⟩
  · exact hkeep before hbefore hne

theorem reachable_traced (h : Reachable (system P) Always s) : Traced P s := by
  refine reachable_inv ?_ (fun _ _ _ hr _ ht h => traced_step hr ht h) h
  intro s hi w m key stage hjob
  rw [hi.base.workers w] at hjob
  cases hjob

/-- The worker is about to send what the transmission asks for, for an attempt of the invoice. -/
def Sends (s : ArcaEdi.Sys W) (w : W) (m key : Nat) (T : Transmission) : Prop :=
  ∃ se tx r, s.worker w = ⟨se, .request m key (.sending tx T.attempt r)⟩ ∧
    ∃ b : Attempt, s.db.row (.attempt T.attempt) = some b ∧ b.moveId = some m ∧
      Asked b.toEvidence T

/-- The transmission left for an invoice that was ready in the database while its lock was held. -/
def FromCommitted (P : Platform) (s : Sys W) (T : Transmission) : Prop :=
  ∃ w m key s₀ s₁ s₂, Began P w m key s₀ s₁ ∧ Sends s₁.base w m key T ∧
    step P s₁ (.base (.transmit w)) = some s₂ ∧ Leads (system P) Always s₂ s

theorem fromCommitted_fate {T : Transmission} (h : FromCommitted P s T) (fate : Fate) :
    FromCommitted P s { T with fate := fate } := by
  obtain ⟨w, m, key, s₀, s₁, s₂, hbegan, ⟨se, tx, r, hw, b, hb, hm, hask⟩, hsend, hleads⟩ := h
  exact ⟨w, m, key, s₀, s₁, s₂, hbegan, ⟨se, tx, r, hw, b, hb, hm, asked_fate hask fate⟩, hsend,
    hleads⟩

theorem fromCommitted_step (hr : Reachable (system P) Always s) (h : step P s a = some s')
    (hsent : ∀ T ∈ s.base.arca.sent, FromCommitted P s T) :
    ∀ T ∈ s'.base.arca.sent, FromCommitted P s' T := by
  have hkeep : ∀ T ∈ s.base.arca.sent, FromCommitted P s' T := by
    intro T hT
    obtain ⟨w, m, key, s₀, s₁, s₂, hbegan, hsends, hsend, hleads⟩ := hsent T hT
    exact ⟨w, m, key, s₀, s₁, s₂, hbegan, hsends, hsend, .step hleads trivial h⟩
  intro T hT
  rcases base_step (step_cases h) with hsame | ⟨b, hb, hact⟩
  · exact hkeep T (hsame ▸ hT)
  cases sent_step (ArcaEdi.step_cases hb) hT with
  | kept hu => exact hkeep T hu
  | recorded hu => exact fromCommitted_fate (hkeep _ hu) _
  | refused hu => exact fromCommitted_fate (hkeep _ hu) _
  | @transmit w se m key i tx r env cuit hw ha =>
    have hrb := reachable_base hr
    obtain ⟨E, hk⟩ := reachable_kept hrb
    obtain ⟨s₀, hbegan⟩ := reachable_traced hr w m key _ (congrArg Worker.job hw) nofun
    refine ⟨w, m, key, s₀, s, s', hbegan, ⟨se, tx, r, hw, ?_⟩, ?_, .refl⟩
    · exact asked_transmit (reachable_sound hrb) hk hw ha
    · rw [← (hact w rfl).1]
      exact h

/-! ## Where a callback comes from -/

def InSession (w : W) (s : Sys W) (_ : Act W) : Prop := (s.base.worker w).session ≠ none

/-- `_post` posted the invoice in the session that the worker still has open. -/
def PostedHere (P : Platform) (s : Sys W) (w : W) (m : Nat) : Prop :=
  (s.base.worker w).session ≠ none ∧
    ∃ s₀ s₁ number auto, Reachable (system P) Always s₀ ∧
      step P s₀ (.post w m number auto) = some s₁ ∧ Leads (system P) (InSession w) s₁ s

/-- `_post` posted the invoice in a session that then committed. -/
def PostingCommitted (P : Platform) (s : Sys W) (w : W) (m : Nat) : Prop :=
  ∃ s₀ s₁ t, PostedHere P s₀ w m ∧ (s₀.base.worker w).session = some t ∧
    s₀.base.commitTx t = some s₁.base.db ∧ step P s₀ (.base (.commit w)) = some s₁ ∧
    Leads (system P) Always s₁ s

theorem request_session {s s' : ArcaEdi.Sys W} {w' : W} (h : s.request P w m = some s') :
    (s'.worker w').session = (s.worker w').session := by
  unfold ArcaEdi.Sys.request at h
  split at h
  · next t hw =>
    split at h
    · split at h
      · cases h
        by_cases hww : w' = w
        · subst hww
          rw [Sys.setWorker_worker, Function.update_self, hw]
        · exact congrArg Worker.session (Function.update_of_ne hww ..)
      · cases h
    · cases h
  · cases h

theorem commit_spec {s s' : ArcaEdi.Sys W} (h : ArcaEdi.step P s (.commit w) = some s')
    (hc : ((s.worker w).session.bind s.commitTx).isSome) :
    ∃ t, (s.worker w).session = some t ∧ s.commitTx t = some s'.db := by
  simp only [ArcaEdi.step, ArcaEdi.Sys.commit] at h
  split at h
  · next t hw =>
    rw [hw, Option.bind_some] at hc
    obtain ⟨db, hdb⟩ := Option.isSome_iff_exists.mp hc
    rw [hdb] at h
    cases h
    exact ⟨t, congrArg Worker.session hw, hdb⟩
  · cases h

theorem follow_callbacks {b : ArcaEdi.Act W} {base : ArcaEdi.Sys W}
    (h : ArcaEdi.step P s.base b = some base) (hm : m ∈ (s.follow b base).callbacks w) :
    m ∈ s.callbacks w ∨ m ∈ s.postcommit w ∧ b = .commit w ∧
      ∃ t, (s.base.worker w).session = some t ∧ s.base.commitTx t = some base.db := by
  dsimp only [Sys.follow] at hm
  split at hm
  · next w' =>
    split at hm
    · next hc =>
      by_cases hw : w = w'
      · subst hw
        rw [Function.update_self, List.mem_append] at hm
        exact hm.imp id fun hm => ⟨hm, rfl, commit_spec h hc⟩
      · rw [Function.update_of_ne hw] at hm
        exact .inl hm
    · exact .inl hm
  · next w' =>
    by_cases hw : w = w'
    · rw [hw, Function.update_self] at hm
      cases hm
    · rw [Function.update_of_ne hw] at hm
      exact .inl hm
  · exact .inl hm

/-- What waits for a commit or a callback was posted in its session. -/
structure Traceable (P : Platform) (s : Sys W) : Prop where
  posted : ∀ w, ∀ m ∈ s.postcommit w, PostedHere P s w m
  committed : ∀ w, ∀ m ∈ s.callbacks w, PostingCommitted P s w m

theorem traceable_step (hr : Reachable (system P) Always s) (ht : Traceable P s)
    (h : step P s a = some s') : Traceable P s' := by
  have hposted : ∀ w, ∀ m ∈ s.postcommit w, (s'.base.worker w).session ≠ none →
      PostedHere P s' w m := by
    intro w m hm hopen
    obtain ⟨hsome, s₀, s₁, number, auto, h₀, hpost, hleads⟩ := ht.posted w m hm
    exact ⟨hopen, s₀, s₁, number, auto, h₀, hpost, .step hleads hsome h⟩
  have hcommitted : ∀ w, ∀ m ∈ s.callbacks w, PostingCommitted P s' w m := by
    intro w m hm
    obtain ⟨s₀, s₁, t, hhere, hsession, hcommit, hstep, hleads⟩ := ht.committed w m hm
    exact ⟨s₀, s₁, t, hhere, hsession, hcommit, hstep, .step hleads trivial h⟩
  cases step_cases h with
  | @base b base hb =>
    refine ⟨fun w m hm => ?_, fun w m hm => ?_⟩
    · obtain ⟨hopen, hm⟩ := follow_postcommit hm
      exact hposted w m hm hopen
    · rcases follow_callbacks hb hm with hold | ⟨hnew, rfl, t, hsession, hcommit⟩
      · exact hcommitted w m hold
      · exact ⟨s, _, t, ht.posted w m hnew, hsession, hcommit, h, .refl⟩
  | post hb hbase hcallbacks hp =>
    refine ⟨fun w m hm => ?_, fun w m hm => hcommitted w m (hcallbacks ▸ hm)⟩
    obtain ⟨hopen, hm | ⟨rfl, rfl⟩⟩ := hp w m hm
    · exact hposted w m hm (hbase ▸ hopen)
    · exact ⟨hbase ▸ hopen, s, s', _, _, hr, h, .refl⟩
  | request hu hreq =>
    refine ⟨fun w m hm => ?_, fun w m hm => hcommitted w m (hu.callbacks w m hm)⟩
    have hm' : m ∈ s.postcommit w := hu.postcommit ▸ hm
    exact hposted w m hm' (by rw [request_session hreq]; exact (ht.posted w m hm').1)
  | loop hs =>
    refine ⟨fun w m hm => ?_, fun w m hm => hcommitted w m (hs.callbacks w m hm)⟩
    have hm' : m ∈ s.postcommit w := hs.postcommit ▸ hm
    exact hposted w m hm' (by rw [hs.base]; exact (ht.posted w m hm').1)

theorem reachable_traceable (h : Reachable (system P) Always s) : Traceable P s := by
  refine reachable_inv ?_ (fun _ _ _ hr _ ht h => traceable_step hr ht h) h
  intro s hi
  refine ⟨fun w m hm => ?_, fun w m hm => ?_⟩
  · rw [hi.postcommit w] at hm
    cases hm
  · rw [hi.callbacks w] at hm
    cases hm

/-! ## What the caller has pending -/

/-- The system, with another transaction in one session. -/
def Sys.withSession (s : Sys W) (w : W) (t : DbTx) : Sys W :=
  { s with base := s.base.withSession w t }

/-- The worker runs a request, and does not die. -/
def Requesting (w : W) (s : Sys W) (a : Act W) : Prop :=
  (∃ m key stage, (s.base.worker w).job = .request m key stage) ∧ a ≠ .base (.kill w)

section Pending

variable {t t' : DbTx} {key : Nat} {stage : Stage}

theorem follow_withSession {b : ArcaEdi.Act W} {base : ArcaEdi.Sys W}
    (hopen : (base.worker w).session ≠ none) (hb : b ≠ .commit w) :
    (s.withSession w t').follow b (base.withSession w t') = (s.follow b base).withSession w t' := by
  have hnone : ∀ w', ((base.withSession w t').worker w').session.isNone =
      (base.worker w').session.isNone := by
    intro w'
    by_cases hw : w' = w
    · subst hw
      obtain ⟨u, hu⟩ := Option.ne_none_iff_exists'.mp hopen
      rw [withSession_worker, hu]
      rfl
    · rw [withSession_worker_ne hw]
  simp only [Sys.follow, Sys.withSession, hnone]
  cases b with
  | commit w' =>
    have hne : w' ≠ w := by
      rintro rfl
      exact hb rfl
    simp only [withSession_worker_ne hne]
    rfl
  | _ => rfl

theorem dispatch_withSession {w' : W} {m' : Nat}
    (hw : u.base.worker w = ⟨some t, .request m key stage⟩) :
    (u.withSession w t').dispatch P w' m' = (u.dispatch P w' m').withSession w t' := by
  have hstep : (u.base.withSession w t').request P w' m' =
      (u.base.request P w' m').map (·.withSession w t') :=
    ArcaEdi.step_withSession (a := .request w' m') hw nofun
  unfold Sys.dispatch
  rw [show (u.withSession w t').base = u.base.withSession w t' from rfl, hstep]
  cases u.base.request P w' m' <;> rfl

theorem step_withSession (hw : s.base.worker w = ⟨some t, .request m key stage⟩)
    (hk : a ≠ .base (.kill w)) (h : step P s a = some s') :
    step P (s.withSession w t') a = some (s'.withSession w t') := by
  have hbusy : ∀ {w' : W} {u : DbTx}, s.base.worker w' = ⟨some u, .idle⟩ → w' ≠ w := by
    rintro w' u hw' rfl
    rw [hw] at hw'
    cases hw'
  cases a with
  | base b =>
    have hkill : b ≠ .kill w := fun hb => hk (congrArg Act.base hb)
    simp only [step] at h ⊢
    split at h
    · cases h
    · next hr =>
      obtain ⟨base, hbase, rfl⟩ := Option.map_eq_some_iff.mp h
      have hcommit : b ≠ .commit w := by
        rintro rfl
        simp [ArcaEdi.step, ArcaEdi.Sys.commit, hw] at hbase
      have hopen : (base.worker w).session ≠ none := by
        rw [session_kept hw hkill hbase]
        exact Option.some_ne_none t
      rw [if_neg hr, ← follow_withSession hopen hcommit]
      refine Option.map_eq_some_iff.mpr ⟨base.withSession w t', ?_, rfl⟩
      exact (ArcaEdi.step_withSession hw hkill).trans (congrArg (Option.map _) hbase)
  | post w' m' number auto =>
    obtain ⟨base, hbase, rfl⟩ := Option.map_eq_some_iff.mp h
    have hne : w' ≠ w := by
      rintro rfl
      simp [ArcaEdi.step, ArcaEdi.Sys.user, hw] at hbase
    have hopen : (base.worker w).session ≠ none := by
      rw [session_kept hw (by simp) hbase]
      exact Option.some_ne_none t
    have hstep : ArcaEdi.step P (s.base.withSession w t') (.user w' (.posting m' number)) =
        some (base.withSession w t') :=
      (ArcaEdi.step_withSession hw (by simp)).trans (congrArg (Option.map _) hbase)
    refine Option.map_eq_some_iff.mpr ⟨base.withSession w t', hstep, ?_⟩
    have hfollow : (s.withSession w t').follow (.user w' (.posting m' number))
        (base.withSession w t') = (s.follow (.user w' (.posting m' number)) base).withSession w t' :=
      follow_withSession hopen (by simp)
    dsimp only
    rw [hfollow, withSession_worker_ne hne]
    cases (base.worker w').session <;> rfl
  | button w' m' =>
    obtain ⟨base, hbase, rfl⟩ := Option.map_eq_some_iff.mp h
    refine Option.map_eq_some_iff.mpr ⟨base.withSession w t', ?_, rfl⟩
    exact (ArcaEdi.step_withSession (a := .request w' m') hw (by simp)).trans
      (congrArg (Option.map _) hbase)
  | callback w' =>
    simp only [step, Sys.callback] at h
    split at h
    · next u₀ m' rest hidle hcallbacks =>
      cases h
      have hworker : (s.withSession w t').base.worker w' = ⟨some u₀, .idle⟩ :=
        (withSession_worker_ne (hbusy hidle)).trans hidle
      simp only [step, Sys.callback, hworker]
      rw [show (s.withSession w t').callbacks w' = m' :: rest from hcallbacks]
      exact congrArg some
        (dispatch_withSession (u := { s with callbacks := Function.update s.callbacks w' rest }) hw)
    · cases h
  | search w' moves limit =>
    simp only [step, Sys.search] at h
    split at h
    · next u₀ hidle =>
      cases h
      have hworker : (s.withSession w t').base.worker w' = ⟨some u₀, .idle⟩ :=
        (withSession_worker_ne (hbusy hidle)).trans hidle
      simp only [step, Sys.search, hworker]
      rfl
    · cases h
  | cron w' =>
    simp only [step, Sys.cron] at h
    split at h
    · next u₀ m' rest hidle hpending =>
      cases h
      have hworker : (s.withSession w t').base.worker w' = ⟨some u₀, .idle⟩ :=
        (withSession_worker_ne (hbusy hidle)).trans hidle
      simp only [step, Sys.cron, hworker]
      rw [show (s.withSession w t').pending w' = m' :: rest from hpending]
      refine congrArg some ?_
      rw [apply_ite (Sys.withSession · w t')]
      exact if_congr Iff.rfl
        (dispatch_withSession (u := { s with pending := Function.update s.pending w' rest }) hw) rfl
    · cases h

theorem requesting_session (hw : s.base.worker w = ⟨some t, .request m key stage⟩)
    (hk : a ≠ .base (.kill w)) (h : step P s a = some s') :
    (s'.base.worker w).session = some t := by
  have hself : s.withSession w t = s := by
    rw [Sys.withSession, withSession_eq_self (congrArg Worker.session hw)]
  have hstep : step P (s.withSession w t) a = _ := step_withSession hw hk h
  rw [hself, h, Option.some.injEq] at hstep
  rw [hstep]
  exact congrArg Worker.session withSession_worker

theorem leads_withSession (hs : (s.base.worker w).session = some t)
    (h : Leads (system P) (Requesting w) s s') :
    (s'.base.worker w).session = some t ∧
      Leads (system P) (Requesting w) (s.withSession w t') (s'.withSession w t') := by
  induction h with
  | refl => exact ⟨hs, .refl⟩
  | @step u u' a _ hok hstep ih =>
    obtain ⟨hsession, hleads⟩ := ih
    obtain ⟨⟨m, key, stage, hjob⟩, hk⟩ := hok
    have hw : u.base.worker w = ⟨some t, .request m key stage⟩ := by rw [← hsession, ← hjob]
    refine ⟨requesting_session hw hk hstep, .step hleads ⟨⟨m, key, stage, ?_⟩, hk⟩ ?_⟩
    · exact (congrArg Worker.job withSession_worker).trans hjob
    · exact step_withSession hw hk hstep

end Pending

/-! ## Every route -/

/-- In every run, by whatever route: what was sent was asked for an invoice that
the database had ready while the lock was held. A callback is left of a posting
that committed. A request runs, and leaves the database, as it would with any
other writes of its caller pending, and they stay pending. -/
theorem request_follows_commit (hs : Reachable (system P) Always s) :
    (∀ T ∈ s.base.arca.sent, FromCommitted P s T) ∧
    (∀ w, ∀ m ∈ s.callbacks w, PostingCommitted P s w m) ∧
    ∀ w t, (s.base.worker w).session = some t → ∀ s', Leads (system P) (Requesting w) s s' →
      (s'.base.worker w).session = some t ∧
      ∀ t', Leads (system P) (Requesting w) (s.withSession w t') (s'.withSession w t') ∧
        (s'.withSession w t').base.db = s'.base.db := by
  refine ⟨?_, (reachable_traceable hs).committed, ?_⟩
  · refine reachable_inv (P := fun s => ∀ T ∈ s.base.arca.sent, FromCommitted P s T) ?_
      (fun _ _ _ hr _ ih h => fromCommitted_step hr h ih) hs
    intro s hi T hT
    rw [hi.base.sent] at hT
    cases hT
  · intro w t ht s' hleads
    have hkept : ∀ t', _ ∧ Leads (system P) (Requesting w) (s.withSession w t') _ :=
      fun t' => leads_withSession ht hleads
    exact ⟨(hkept t).1, fun t' => ⟨(hkept t').2, rfl⟩⟩

/-! ## The office -/

namespace Office

def initial : Sys (Fin 3) where
  base := ArcaEdi.Office.initial
  postcommit _ := []
  callbacks _ := []
  pending _ := []

/-- A user posts an invoice with the automatic request on, and its callback runs. -/
def automatic (w : Fin 3) : List (Act (Fin 3)) :=
  [.base (.start w), .base (.user w (.generateKeyAndCsr 0 true ⟨7⟩)),
    .base (.user w (.processCertificate 0 (some ⟨7, none, 0, 1000000⟩))), .post w 0 none true,
    .base (.commit w), .base (.start w), .callback w, .base (.enter w),
    .base (.lastAuthorized w (.response ⟨none, some 0⟩)), .base (.checkpoint w), .base (.resume w),
    .base (.transmit w)]

end Office

theorem request_follows_commit_automatic :
    ∃ s : Sys (Fin 3), Reachable (system ArcaEdi.Office.platform) Always s ∧
      ∃ T ∈ s.base.arca.sent, FromCommitted ArcaEdi.Office.platform s T := by
  have hinit : Initial Office.initial :=
    ⟨ArcaEdi.Office.initial_initial, fun _ => rfl, fun _ => rfl⟩
  have hrun : (run (system ArcaEdi.Office.platform) Always Office.initial (Office.automatic 2)).any
      (fun s => s.base.arca.sent != []) = true := by decide +kernel
  obtain ⟨s, hs, hsent⟩ := run_reaches hinit hrun
  obtain ⟨T, hT⟩ := List.exists_mem_of_ne_nil _ (bne_iff_ne.mp hsent)
  exact ⟨s, hs, T, hT, (request_follows_commit hs).1 T hT⟩

end ArcaEdi.Routes
