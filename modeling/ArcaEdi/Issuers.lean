import Mathlib.Data.Fintype.Basic
import ArcaEdi.Granted

/-!
# The environment that granted a ticket

The cache of a certificate does not say which environment of ARCA granted its
tickets, and the certificate may be written to point to the other one. Here the
registry runs beside such writes, and keeps a history of grants and calls.
-/

namespace ArcaEdi.Registry

open Runs Snapshot

/-! ## States -/

/-- The registry, with all that ARCA granted and all the calls so far. -/
structure Recorded (W : Type) where
  base : Sys W
  grants : List (Environment × Ticket)
  /-- The environment of each call, and the ticket that it carried. -/
  calls : List (Environment × Ticket)

def environmentIn (v : View) (k : Nat) : Option Environment :=
  (v (.certificate k)).map (·.environment)

def Job.certificate? : Job → Option Nat
  | .token k _ _ => some k
  | .idle => none

/-- The environment that the caller of a run calls, once it has its ticket. -/
def Worker.callerEnvironment (v : Worker) (k : Nat) : Option Environment :=
  v.session.bind fun se => environmentIn se.tx.view k

namespace Sys

variable {W : Type} [DecidableEq W]

/-- `loginCms` goes to the environment that the work transaction sees. -/
def issued (s : Sys W) : Act W → Option (Environment × Ticket)
  | .login w reply => do
    let (k, tx) ← (s.worker w).job.asking?
    let environment ← environmentIn tx.view k
    let ticket ← (loginCms s.clock reply).toOption
    return (environment, ticket)
  | _ => none

/-- The call of worker `w`, if the step gave it a ticket. -/
def served (s s' : Sys W) (w : W) (k : Nat) : Option (Environment × Ticket) :=
  match (s'.worker w).job, (s'.worker w).got with
  | .idle, some (.ok ticket) => ((s.worker w).callerEnvironment k).map (·, ticket)
  | _, _ => none

/-- The call that a step hands a ticket to. -/
def called (s s' : Sys W) : Act W → Option (Environment × Ticket)
  | .ask w k _ => s.served s' w k
  | .enter w _ | .leave w => (s.worker w).job.certificate?.bind (s.served s' w)
  | _ => none

/-- A write of `environment`, in a transaction of its own. -/
def writeEnvironment (s : Sys W) (k : Nat) (environment : Environment) : Option (Sys W) :=
  match s.db.row (.certificate k) with
  | some c =>
    let tx : DbTx := Tx.start s.db
    ((tx.write (.certificate k) (some { c with environment := environment })).commit s.db).map
      fun db => { s with db := db }
  | none => none

end Sys

/-! ## Steps -/

inductive RecordedAct (W : Type)
  | base (a : Act W)
  | write (k : Nat) (environment : Environment)

variable {W : Type} [DecidableEq W]

def recordedStep (P : Platform) (s : Recorded W) : RecordedAct W → Option (Recorded W)
  | .base a =>
    (step P s.base a).map fun base =>
      ⟨base, (s.base.issued a).toList ++ s.grants, (s.base.called base a).toList ++ s.calls⟩
  | .write k environment =>
    (s.base.writeEnvironment k environment).map fun base => { s with base := base }

structure Recorded.Initial (s : Recorded W) : Prop where
  base : Registry.Initial s.base
  grants : s.grants = []
  calls : s.calls = []

def recordedSystem (P : Platform) : Runs.System (Recorded W) (RecordedAct W) where
  init := Recorded.Initial
  step := recordedStep P

/-! ## The condition -/

/-- A write that changes the environment finds no ticket in the cache. A run enters its
transaction while its caller and the database see one environment. -/
def keepsIssuer (s : Recorded W) : RecordedAct W → Prop
  | .write k environment => ∀ c ∈ s.base.db.row (.certificate k),
      c.environment = environment ∨ c.tokenCache = []
  | .base (.enter w _) => ∀ k ∈ (s.base.worker w).job.certificate?,
      ∀ environment ∈ (s.base.worker w).callerEnvironment k,
        environmentIn s.base.db.row k = some environment
  | .base _ => True

instance (s : Recorded W) (a : RecordedAct W) : Decidable (keepsIssuer s a) :=
  match a with
  | .write k environment => inferInstanceAs (Decidable (∀ c ∈ s.base.db.row (.certificate k),
      c.environment = environment ∨ c.tokenCache = []))
  | .base (.enter w _) => inferInstanceAs (Decidable (∀ k ∈ (s.base.worker w).job.certificate?,
      ∀ environment ∈ (s.base.worker w).callerEnvironment k,
        environmentIn s.base.db.row k = some environment))
  | .base (.tick _) | .base (.start _) | .base (.user _ _) | .base (.commit _) | .base (.rollback _)
  | .base (.ask _ _ _) | .base (.login _ _) | .base (.keep _) | .base (.leave _)
  | .base (.abort _ _) | .base (.kill _) => isTrue trivial

/-! ## Records -/

/-- Every ticket in the cache is of the record's environment. A draft has none, and no key. -/
structure Issued (grants : List (Environment × Ticket)) (c : Certificate) : Prop where
  draft : c.state = .draft → c.privateKey = none ∧ c.tokenCache = []
  granted : ∀ entry ∈ c.tokenCache, (c.environment, entry.2) ∈ grants

omit [DecidableEq W] in
theorem issued_mono {grants grants' : List (Environment × Ticket)} {c : Certificate}
    (hsub : ∀ g ∈ grants, g ∈ grants') (h : Issued grants c) : Issued grants' c :=
  ⟨h.draft, fun entry he => hsub _ (h.granted entry he)⟩

omit [DecidableEq W] in
theorem change_issued {grants : List (Environment × Ticket)} {now fresh k : Nat} {v : View} {op : Op}
    {c : Certificate} (hv : ∀ k c, v (.certificate k) = some c → Issued grants c)
    (h : RowChange now fresh v op k (v (.certificate k)) (some c)) : Issued grants c := by
  have hempty : ∀ {c : Certificate}, c.state ≠ .draft → c.tokenCache = [] → Issued grants c := by
    intro c hs hc
    exact ⟨fun hd => absurd hd hs, by simp [hc]⟩
  have hnew : ∀ {c : Certificate}, c.privateKey = none → c.tokenCache = [] → Issued grants c := by
    intro c hk hc
    exact ⟨fun _ => ⟨hk, hc⟩, by simp [hc]⟩
  have hold := hv k
  generalize v (.certificate k) = r at h hold
  cases h with
  | same => exact hold c rfl
  | created => exact hnew rfl rfl
  | copied => exact hnew rfl rfl
  | @saved k form file c0 =>
    obtain ⟨hdraft, hgranted⟩ := hold c0 rfl
    unfold saved
    split
    · next hd => exact ⟨hdraft, by simp [(hdraft hd).2]⟩
    · exact ⟨hdraft, hgranted⟩
  | @generated k canWrite key c0 ho hd =>
    have hc := ((hold c0 rfl).draft hd).2
    exact hempty (by simp [Certificate.generated]) (by simp [Certificate.generated, hc])
  | installed => exact hempty (by simp [Certificate.installed]) rfl
  | revoked => exact hempty (by simp [Certificate.actionRevoke]) rfl
  | expired => exact hempty (by simp) rfl

omit [DecidableEq W] in
theorem storeToken_issued {grants : List (Environment × Ticket)} {c : Certificate} {service : String}
    {ticket : Ticket} (h : Issued grants c) (hkey : c.privateKey ≠ none)
    (hg : (c.environment, ticket) ∈ grants) : Issued grants (c.storeToken service ticket) := by
  refine ⟨fun hd => absurd (h.draft hd).1 hkey, ?_⟩
  intro entry he
  rcases List.mem_cons.mp he with rfl | he
  · exact hg
  · exact h.granted entry (List.mem_of_mem_filter he)

omit [DecidableEq W] in
theorem cached_mem {c : Certificate} {service : String} {ticket : Ticket}
    (h : c.cached service = some ticket) : ∃ entry ∈ c.tokenCache, entry.2 = ticket := by
  obtain ⟨entry, hfind, rfl⟩ := Option.map_eq_some_iff.mp h
  exact ⟨entry, List.mem_of_find?_eq_some hfind, rfl⟩

omit [DecidableEq W] in
theorem read_mem {now : Nat} {c : Certificate} {service : String} {ticket : Ticket}
    (h : readCachedToken now c service = some ticket) : ∃ entry ∈ c.tokenCache, entry.2 = ticket := by
  unfold readCachedToken at h
  split at h
  · cases h
  · next hc =>
    split at h
    · cases h
    · cases h
      exact cached_mem hc

/-! ## The invariant -/

def ViewIssued (grants : List (Environment × Ticket)) (v : View) : Prop :=
  ∀ k c, v (.certificate k) = some c → Issued grants c

/-- `caller` is the environment of the session that waits for the run. -/
def TokenStage.Bound (grants : List (Environment × Ticket)) (k : Nat) (caller : Option Environment) :
    TokenStage → Prop
  | .locked => True
  | .asking tx => ViewIssued grants tx.view ∧ ∃ c, tx.view (.certificate k) = some c ∧
      c.privateKey ≠ none ∧ ∀ environment ∈ caller, environment = c.environment
  | .granted tx ticket => ViewIssued grants tx.view ∧ ∀ environment ∈ caller, (environment, ticket) ∈ grants
  | .kept ticket => ∀ environment ∈ caller, (environment, ticket) ∈ grants

structure Worker.Bound (grants : List (Environment × Ticket)) (v : Worker) : Prop where
  session : ∀ se, v.session = some se → ViewIssued grants se.tx.view
  stage : ∀ k service stage, v.job = .token k service stage →
    stage.Bound grants k (v.callerEnvironment k)

structure Recorded.Bound (s : Recorded W) : Prop where
  db : ViewIssued s.grants s.base.db.row
  workers : ∀ w, (s.base.worker w).Bound s.grants
  calls : ∀ call ∈ s.calls, call ∈ s.grants

section Invariant

variable {P : Platform} {grants grants' : List (Environment × Ticket)} {s : Recorded W}
  {b b' : Sys W} {a : Act W} {w : W} {v : Worker} {k : Nat} {tx : DbTx}

omit [DecidableEq W] in
theorem stageBound_mono (hsub : ∀ g ∈ grants, g ∈ grants') {caller : Option Environment}
    {stage : TokenStage} (h : stage.Bound grants k caller) : stage.Bound grants' k caller := by
  cases stage with
  | locked => trivial
  | asking tx => exact ⟨fun k c hc => issued_mono hsub (h.1 k c hc), h.2⟩
  | granted tx ticket =>
    exact ⟨fun k c hc => issued_mono hsub (h.1 k c hc), fun e he => hsub _ (h.2 e he)⟩
  | kept ticket => exact fun e he => hsub _ (h e he)

omit [DecidableEq W] in
theorem workerBound_mono (hsub : ∀ g ∈ grants, g ∈ grants') (h : v.Bound grants) : v.Bound grants' :=
  ⟨fun se hse k c hc => issued_mono hsub (h.session se hse k c hc),
    fun k service stage hj => stageBound_mono hsub (h.stage k service stage hj)⟩

theorem workersBound_update (hall : ∀ w, (b.worker w).Bound grants)
    (hw : b'.worker = Function.update b.worker w v) (hv : v.Bound grants) :
    ∀ w, (b'.worker w).Bound grants := by
  intro w'
  rw [hw]
  by_cases hww : w' = w
  · subst hww
    rwa [Function.update_self]
  · rw [Function.update_of_ne hww]
    exact hall w'

omit [DecidableEq W] in
theorem idle_bound {session : Option Session} {got : Option (Except Exn Ticket)}
    (h : ∀ se, session = some se → ViewIssued grants se.tx.view) :
    Worker.Bound grants ⟨session, .idle, got⟩ := ⟨h, fun _ _ _ hj => by cases hj⟩

omit [DecidableEq W] in
theorem viewIssued_apply {db : Db} (hdb : ViewIssued grants db.row) (htx : ViewIssued grants tx.view) :
    ViewIssued grants (db.apply tx).row := by
  intro k c hc
  rcases apply_row db tx (.certificate k) with h | h <;> rw [h] at hc
  · exact hdb k c hc
  · exact htx k c hc

omit [DecidableEq W] in
theorem viewIssued_run {now fresh : Nat} {op : Op} {tx' : DbTx} (h : ViewIssued grants tx.view)
    (hrun : op.run now fresh tx = .ok tx') : ViewIssued grants tx'.view := fun k _ hc =>
  change_issued h (hc ▸ (run_effect hrun).row k)

omit [DecidableEq W] in
theorem viewIssued_store {c : Certificate} {service : String} {ticket : Ticket}
    (h : ViewIssued grants tx.view) (hc : tx.view (.certificate k) = some c)
    (hkey : c.privateKey ≠ none) (hg : (c.environment, ticket) ∈ grants) :
    ViewIssued grants (tx.write (.certificate k) (some (c.storeToken service ticket))).view := by
  intro j c' hc'
  by_cases hj : j = k
  · subst hj
    rw [write_view_self] at hc'
    cases hc'
    exact storeToken_issued (h j c hc) hkey hg
  · rw [write_view_ne _ _ (by simpa using hj)] at hc'
    exact h j c' hc'

omit [DecidableEq W] in
theorem issued_login {reply : LoginReply} {service : String} {c : Certificate} {ticket : Ticket}
    (hj : (b.worker w).job = .token k service (.asking tx)) (hc : tx.view (.certificate k) = some c)
    (hr : loginCms b.clock reply = .ok ticket) :
    b.issued (.login w reply) = some (c.environment, ticket) := by
  simp [Sys.issued, hj, Job.asking?, environmentIn, hc, hr, Except.toOption]

/-! ## Steps keep the invariant -/

theorem base_bound (hdb : ViewIssued grants b.db.row) (hall : ∀ w, (b.worker w).Bound grants)
    (hok : ∀ w signing, a = .enter w signing → ∀ k ∈ (b.worker w).job.certificate?,
      ∀ environment ∈ (b.worker w).callerEnvironment k,
        environmentIn b.db.row k = some environment)
    (hsub : ∀ g ∈ grants, g ∈ grants') (hnew : ∀ g ∈ b.issued a, g ∈ grants')
    (h : Step P b a b') : ViewIssued grants' b'.db.row ∧ ∀ w, (b'.worker w).Bound grants' := by
  have hdb' : ViewIssued grants' b.db.row := fun k c hc => issued_mono hsub (hdb k c hc)
  have hall' : ∀ w, (b.worker w).Bound grants' := fun w => workerBound_mono hsub (hall w)
  have hsession : ∀ {w se job got}, b.worker w = ⟨some se, job, got⟩ → ViewIssued grants' se.tx.view :=
    fun {w se job got} hw => (hall' w).session se (by rw [hw])
  have hfinish : ∀ w outcome, ∀ w', ((b.finish w outcome).worker w').Bound grants' := fun w outcome =>
    workersBound_update hall' (finish_worker b w outcome)
      (idle_bound fun se hse => (hall' w).session se (sessionAfter_some hse))
  cases h with
  | tick => exact ⟨hdb', hall'⟩
  | start hw =>
    exact ⟨hdb', workersBound_update hall' rfl (idle_bound fun se hse => by
      cases hse
      exact hdb')⟩
  | user hw hrun =>
    exact ⟨hdb', workersBound_update hall' rfl (idle_bound fun se hse => by
      cases hse
      exact viewIssued_run (hsession hw) hrun)⟩
  | raised hw | drop hw =>
    exact ⟨hdb', workersBound_update hall' rfl (idle_bound fun se hse => by cases hse)⟩
  | commit hw hc =>
    obtain ⟨-, rfl⟩ := commit_eq_some.mp hc
    exact ⟨viewIssued_apply hdb' (hsession hw),
      workersBound_update hall' rfl (idle_bound fun se hse => by cases hse)⟩
  | @lock w se got k service hw =>
    refine ⟨hdb', workersBound_update hall' rfl
      ⟨fun se hse => (hall' w).session se (by rw [hw, hse]), ?_⟩⟩
    rintro _ _ _ ⟨⟩
    trivial
  | @enter w session got k service signing hw hr =>
    obtain ⟨c, hc, -, hkey⟩ := readUnder_eq_none hr
    refine ⟨hdb', workersBound_update hall' rfl
      ⟨fun se hse => (hall' w).session se (by rw [hw]; exact hse), ?_⟩⟩
    rintro _ _ _ ⟨⟩
    refine ⟨hdb', c, hc, hkey, fun environment he => ?_⟩
    have hsame := hok w signing rfl k (by rw [hw]; rfl) environment (by rw [hw]; exact he)
    rw [environmentIn, hc] at hsame
    exact (Option.some.inj hsame).symm
  | @login w session got k service tx reply c ticket hw hc hr =>
    have hj : (b.worker w).job = .token k service (.asking tx) := by rw [hw]
    have hgrant : (c.environment, ticket) ∈ grants' := hnew _ (issued_login hj hc hr)
    obtain ⟨hview, c', hc', hkey, hcaller⟩ := (hall' w).stage _ _ _ hj
    rw [hc] at hc'
    cases hc'
    refine ⟨hdb', workersBound_update hall' rfl
      ⟨fun se hse => (hall' w).session se (by rw [hw]; exact hse), ?_⟩⟩
    rintro _ _ _ ⟨⟩
    refine ⟨viewIssued_store hview hc hkey hgrant, fun environment he => ?_⟩
    rw [hcaller environment (by rw [hw]; exact he)]
    exact hgrant
  | @keep w session got k service tx ticket db hw hc =>
    obtain ⟨-, rfl⟩ := commit_eq_some.mp hc
    obtain ⟨hview, hcaller⟩ := (hall' w).stage k service (.granted tx ticket) (by rw [hw])
    refine ⟨viewIssued_apply hdb' hview,
      workersBound_update hall' rfl ⟨fun se hse => (hall' w).session se (by rw [hw]; exact hse), ?_⟩⟩
    rintro _ _ _ ⟨⟩
    exact fun environment he => hcaller environment (by rw [hw]; exact he)
  | refused | finish | abort => exact ⟨hdb', hfinish _ _⟩
  | kill =>
    exact ⟨hdb', workersBound_update hall' (kill_worker _ _) (idle_bound fun se hse => by cases hse)⟩

theorem readBefore_found {now : Nat} {u : View} {service : String} {ticket : Ticket}
    (h : readBefore now u k service = .ok (some ticket)) :
    ∃ c, u (.certificate k) = some c ∧ readCachedToken now c service = some ticket := by
  unfold readBefore beforeLock at h
  simp only [Raise.bind_eq_ok, Raise.pure_eq_ok] at h
  obtain ⟨c, hc, -, -, hread⟩ := h
  exact ⟨c, browse_eq_ok.mp hc, hread⟩

theorem readUnder_found {now : Nat} {u : View} {service : String} {signing : Option String}
    {ticket : Ticket} (h : readUnder now u k service signing = .ok (some ticket)) :
    ∃ c, u (.certificate k) = some c ∧ readCachedToken now c service = some ticket := by
  obtain ⟨c, hc, h⟩ := readUnder_eq_ok.mp h
  refine ⟨c, hc, ?_⟩
  unfold underLock at h
  split at h
  · next t hread =>
    cases h
    exact hread
  · simp only [Raise.bind_eq_ok, Raise.pure_eq_ok] at h
    obtain ⟨-, -, h⟩ := h
    cases h

omit [DecidableEq W] in
theorem served_eq_some {environment : Environment} {ticket : Ticket}
    (h : b.served b' w k = some (environment, ticket)) :
    (b.worker w).callerEnvironment k = some environment ∧ (b'.worker w).got = some (.ok ticket) ∧
      (b'.worker w).job = .idle := by
  unfold Sys.served at h
  split at h
  · next hj hg =>
    obtain ⟨e, he, heq⟩ := Option.map_eq_some_iff.mp h
    cases heq
    exact ⟨he, hg, hj⟩
  · cases h

theorem finish_got {outcome : Except Exn Ticket} : ((b.finish w outcome).worker w).got = some outcome := by
  rw [finish_worker, Function.update_self]

theorem called_granted (hdb : ViewIssued grants b.db.row) (hall : ∀ w, (b.worker w).Bound grants)
    (hok : ∀ w signing, a = .enter w signing → ∀ k ∈ (b.worker w).job.certificate?,
      ∀ environment ∈ (b.worker w).callerEnvironment k,
        environmentIn b.db.row k = some environment)
    (h : step P b a = some b') : ∀ call ∈ b.called b' a, call ∈ grants := by
  rintro ⟨environment, ticket⟩ hcall
  have hcached : ∀ {v : View} {k now service}, ViewIssued grants v → environmentIn v k = some environment →
      (∃ c, v (.certificate k) = some c ∧ readCachedToken now c service = some ticket) →
      (environment, ticket) ∈ grants := by
    rintro v k now service hv he ⟨c, hc, hread⟩
    obtain ⟨entry, hentry, rfl⟩ := read_mem hread
    rw [environmentIn, hc] at he
    cases he
    exact (hv k c hc).granted entry hentry
  cases a with
  | ask w k service =>
    obtain ⟨hcaller, hgot, hidle⟩ := served_eq_some hcall
    simp only [step, Sys.ask] at h
    split at h
    · next se got hw =>
      rw [Worker.callerEnvironment, hw] at hcaller
      split at h
      · cases h
        rw [finish_got] at hgot
        cases hgot
      · next hread =>
        cases h
        rw [finish_got] at hgot
        cases hgot
        exact hcached ((hall w).session se (by rw [hw])) hcaller (readBefore_found hread)
      · split at h <;> cases h
        · rw [setWorker_worker, Function.update_self] at hidle
          cases hidle
        · rw [finish_got] at hgot
          cases hgot
    · cases h
  | enter w signing =>
    simp only [step, Sys.enter] at h
    split at h
    · next session k service got hw =>
      have hk : (b.worker w).job.certificate? = some k := by rw [hw]; rfl
      simp only [Sys.called, hk, Option.bind_some] at hcall
      obtain ⟨hcaller, hgot, hidle⟩ := served_eq_some hcall
      have hsame := hok w signing rfl k hk environment hcaller
      split at h <;> cases h
      · rw [finish_got] at hgot
        cases hgot
      · next hread =>
        rw [finish_got] at hgot
        cases hgot
        exact hcached hdb hsame (readUnder_found hread)
      · rw [setWorker_worker, Function.update_self] at hidle
        cases hidle
    · cases h
  | leave w =>
    simp only [step, Sys.leave] at h
    split at h <;> cases h
    next session k service kept got hw =>
      have hk : (b.worker w).job.certificate? = some k := by rw [hw]; rfl
      simp only [Sys.called, hk, Option.bind_some] at hcall
      obtain ⟨hcaller, hgot, -⟩ := served_eq_some hcall
      rw [finish_got] at hgot
      cases hgot
      exact (hall w).stage k service (.kept ticket) (by rw [hw]) environment hcaller
  | tick | start | user | commit | rollback | login | keep | abort | kill => cases hcall

omit [DecidableEq W] in
theorem written_bound {environment : Environment} (hb : s.Bound)
    (hok : ∀ c ∈ s.base.db.row (.certificate k), c.environment = environment ∨ c.tokenCache = [])
    (h : s.base.writeEnvironment k environment = some b') : Recorded.Bound { s with base := b' } := by
  unfold Sys.writeEnvironment at h
  split at h
  · next c hc =>
    obtain ⟨db, hdb, rfl⟩ := Option.map_eq_some_iff.mp h
    obtain ⟨-, rfl⟩ := commit_eq_some.mp hdb
    refine ⟨viewIssued_apply hb.db fun j c' hc' => ?_, hb.workers, hb.calls⟩
    by_cases hj : j = k
    · subst hj
      rw [write_view_self] at hc'
      cases hc'
      obtain ⟨hdraft, hgranted⟩ := hb.db j c hc
      rcases hok c hc with rfl | hempty
      · exact ⟨hdraft, hgranted⟩
      · exact ⟨hdraft, by simp [hempty]⟩
    · rw [write_view_ne _ _ (by simpa using hj)] at hc'
      exact hb.db j c' hc'
  · cases h

theorem reachable_bound (h : Reachable (recordedSystem P) keepsIssuer s) : s.Bound := by
  refine reachable_inv (P := Recorded.Bound) ?_ ?_ h
  · intro s hs
    refine ⟨fun k c hc => ?_, fun w => ?_, by simp [hs.calls]⟩
    · rw [hs.base.certificates k] at hc
      cases hc
    · rw [hs.base.workers w]
      exact idle_bound fun se hse => by cases hse
  · intro s a s' _ hok hb hstep
    cases a with
    | base a =>
      obtain ⟨b', hb', rfl⟩ := Option.map_eq_some_iff.mp hstep
      have hagrees : ∀ w signing, a = .enter w signing → ∀ k ∈ (s.base.worker w).job.certificate?,
          ∀ environment ∈ (s.base.worker w).callerEnvironment k,
            environmentIn s.base.db.row k = some environment := by
        rintro w signing rfl
        exact hok
      have hsub : ∀ g ∈ s.grants, g ∈ (s.base.issued a).toList ++ s.grants :=
        fun g hg => List.mem_append_right _ hg
      obtain ⟨hdb, hall⟩ := base_bound hb.db hb.workers hagrees hsub
        (fun g hg => List.mem_append_left _ (Option.mem_toList.mpr hg)) (step_cases hb')
      refine ⟨hdb, hall, fun call hcall => ?_⟩
      rcases List.mem_append.mp hcall with hnew | hold
      · exact hsub _ (called_granted hb.db hb.workers hagrees hb' call (Option.mem_toList.mp hnew))
      · exact hsub _ (hb.calls call hold)
    | write k environment =>
      obtain ⟨b', hb', rfl⟩ := Option.map_eq_some_iff.mp hstep
      exact written_bound hb hok hb'

end Invariant

/-! ## A certificate that moves to production -/

namespace Office

def recorded : Recorded (Fin 2) := ⟨initial, [], []⟩

theorem recorded_initial : recorded.Initial := ⟨initial_initial, rfl, rfl⟩

def ticket : Ticket := ⟨"TOKEN", "SIGN", 43200⟩

/-- A run that finds the ticket in the cache. -/
def cachedCall (w : Fin 2) : List (RecordedAct (Fin 2)) :=
  [.base (.start w), .base (.ask w 0 "wsfe"), .base (.commit w)]

/-- The certificate moves to production before its first ticket. -/
def movedBefore (w : Fin 2) : List (RecordedAct (Fin 2)) :=
  (activated w).map .base ++ .write 0 .production :: (authenticated w "wsfe" 43200).map .base ++
    cachedCall w

/-- The certificate moves to production with a ticket in its cache. -/
def movedAfter (w : Fin 2) : List (RecordedAct (Fin 2)) :=
  (activated w ++ authenticated w "wsfe" 43200).map .base ++ .write 0 .production :: cachedCall w

theorem movedBefore_calls : ∃ s : Recorded (Fin 2), Reachable (recordedSystem platform) keepsIssuer s ∧
    s.calls = [(.production, ticket), (.production, ticket)] := by
  have hrun : (run (recordedSystem platform) keepsIssuer recorded (movedBefore 0)).any
      (fun s => s.calls == [(.production, ticket), (.production, ticket)]) = true := by
    decide +kernel
  obtain ⟨s, hs, hcalls⟩ := run_reaches recorded_initial hrun
  exact ⟨s, hs, beq_iff_eq.mp hcalls⟩

theorem movedAfter_calls : ∃ s : Recorded (Fin 2), Reachable (recordedSystem platform) Always s ∧
    (.production, ticket) ∈ s.calls ∧ (.production, ticket) ∉ s.grants := by
  have hrun : (run (recordedSystem platform) Always recorded (movedAfter 0)).any
      (fun s => s.calls.contains (.production, ticket) && !s.grants.contains (.production, ticket)) =
        true := by
    decide +kernel
  obtain ⟨s, hs, hcalls⟩ := run_reaches recorded_initial hrun
  rw [Bool.and_eq_true, Bool.not_eq_true', List.contains_iff_mem] at hcalls
  exact ⟨s, hs, hcalls.1, by simpa using hcalls.2⟩

end Office

end ArcaEdi.Registry
