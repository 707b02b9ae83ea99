import ArcaEdi.Alone
import ArcaEdi.NumberingRuns

/-!
# The cron settles what was left open

When nobody is at work and no request is on its way, one run of the reconciliation cron
closes every attempt that its search finds, as long as ARCA answers it.
-/

namespace ArcaEdi

open Snapshot Runs

variable {W : Type} [DecidableEq W] {P : Platform} {s s' u : Sys W} {a : Act W} {w : W}

/-! ## Locks -/

/-- A lock is held by a job that works under it. -/
def LocksInUse (s : Sys W) : Prop :=
  ∀ w key, s.locks key = some w → (s.worker w).job.key? = some key

theorem inUse_keep {v : Worker} (h : LocksInUse s) (hl : s'.locks = s.locks)
    (hs : s'.worker = Function.update s.worker w v)
    (hv : (s.worker w).job.key? = none ∨ v.job.key? = (s.worker w).job.key?) : LocksInUse s' := by
  intro w' key hkey
  rw [hl] at hkey
  have hold := h w' key hkey
  rw [hs]
  by_cases hww : w' = w
  · subst hww
    rw [Function.update_self]
    rcases hv with hv | hv
    · rw [hv] at hold
      cases hold
    · exact hv.trans hold
  · rw [Function.update_of_ne hww]
    exact hold

theorem inUse_lock {v : Worker} {key : Nat} (h : LocksInUse s)
    (hfree : (s.worker w).job.key? = none)
    (hl : s'.locks = Function.update s.locks key (some w))
    (hs : s'.worker = Function.update s.worker w v) (hv : v.job.key? = some key) : LocksInUse s' := by
  intro w' key' hkey
  rw [hl] at hkey
  rw [hs]
  by_cases hk : key' = key
  · subst hk
    rw [Function.update_self] at hkey
    cases hkey
    rw [Function.update_self]
    exact hv
  · rw [Function.update_of_ne hk] at hkey
    have hold := h w' key' hkey
    have hww : w' ≠ w := by
      rintro rfl
      rw [hfree] at hold
      cases hold
    rw [Function.update_of_ne hww]
    exact hold

theorem inUse_release {v : Worker} (h : LocksInUse s) (hl : s'.locks = (s.release w).locks)
    (hs : s'.worker = Function.update s.worker w v) : LocksInUse s' := by
  intro w' key hkey
  simp only [hl, Sys.release] at hkey
  split at hkey
  · cases hkey
  · next hne =>
    have hww : w' ≠ w := by
      rintro rfl
      exact hne hkey
    rw [hs, Function.update_of_ne hww]
    exact h w' key hkey

theorem inUse_step (hL : LocksInUse s) (h : Step P s a s') : LocksInUse s' := by
  cases h with
  | tick | ticket | record | refuse | elsewhere => exact hL
  | start hw | user hw | close hw | commit hw | dropButtons hw | dropCron hw | buttons hw | search hw
  | next hw | consult hw | skip hw => exact inUse_keep hL rfl rfl (.inl (by rw [hw]; rfl))
  | request hw | isolate hw => exact inUse_lock hL (by rw [hw]; rfl) rfl rfl rfl
  | enter hw | create hw | checkpoint hw | resume hw | outcome hw | transmit hw | enterIsolated hw
  | consultIsolated hw | skipIsolated hw => exact inUse_keep hL rfl rfl (.inr (by rw [hw]; rfl))
  | settle | endRun | kill | settleIsolated | endIsolated => exact inUse_release hL rfl rfl

theorem reachable_locksInUse {ok : Sys W → Act W → Prop} (h : Reachable (system P) ok s) :
    LocksInUse s := by
  refine reachable_inv ?_ (fun _ _ _ _ _ hL h => inUse_step hL (step_cases h)) h
  intro s hi w key hkey
  rw [hi.locks key] at hkey
  cases hkey

/-- Nobody is at work. -/
def AllIdle (s : Sys W) : Prop := ∀ w, s.worker w = {}

theorem allIdle_locks {ok : Sys W → Act W → Prop} (hr : Reachable (system P) ok s) (hq : AllIdle s)
    (key : Nat) : s.locks key = none := by
  cases hkey : s.locks key with
  | none => rfl
  | some w =>
    have hjob := reachable_locksInUse hr w key hkey
    rw [hq w] at hjob
    cases hjob

/-! ## What ARCA tells -/

/-- ARCA tells the voucher, with its CAE and a date that can be read, or that it holds none. -/
structure Tells (arca : Arca) (c : Coordinates) (reply : SoapReply (Option ConsultResponse)) : Prop where
  honest : arca.honestConsult c reply = true
  none : arca.voucher c = none → feCompConsultar reply = .ok none
  some : ∀ v, arca.voucher c = some v → v.cae ≠ "" ∧ ∃ found due,
    feCompConsultar reply = .ok (some found) ∧ found.cae = some v.cae ∧
      dateField found.caeDueDate = .ok due

/-- What the attempt and its invoice say once ARCA has told. -/
inductive ClosedAs (v : View) (i m : Nat) (b : Attempt) : Option Voucher → Prop
  | authorized {voucher : Voucher} {c : Attempt} (hrow : v (.attempt i) = some c)
      (hev : c.toEvidence = b.toEvidence) (hst : c.state = .authorized)
      (hcae : c.cae = some voucher.cae) (hmove : (v (.move m) : Move).arcaState = .authorized)
      (hmoveCae : (v (.move m) : Move).cae = some voucher.cae) : ClosedAs v i m b (some voucher)
  | aborted {c : Attempt} (hrow : v (.attempt i) = some c) (hev : c.toEvidence = b.toEvidence)
      (hst : c.state = .aborted) (hmove : (v (.move m) : Move).arcaState = .pending) :
      ClosedAs v i m b none

/-- The run that closes one attempt. -/
structure ClosesWith (s : Sys W) (t : DbTx) (i m : Nat) (b : Attempt) (voucher : Option Voucher) :
    Prop where
  pair : ∃ c st, t = pairWrite (Tx.start s.db) i c m st ∧ c.toEvidence = b.toEvidence
  closed : ClosedAs t.view i m b voucher

omit [DecidableEq W] in
theorem reconcile_closesWith {i m k : Nat} {b : Attempt} {c : Coordinates} {env : Environment} {cuit : Int}
    {reply : SoapReply (Option ConsultResponse)} (hrow : s.db.row (.attempt i) = some b)
    (hopen : b.state.isOpen = true) (hm : b.moveId = some m) (hk : b.certificateId = some k)
    (hauth : Sys.auth s.clock s.db.row k b.issuerCuit = some (env, cuit))
    (hc : c = ⟨⟨env, cuit, b.posNumber, b.documentTypeCode⟩, b.documentNumber⟩)
    (ht : Tells s.arca c reply) :
    ∃ t, s.reconcile (Tx.start s.db) i reply = some (.ok t) ∧
      ClosesWith s t i m b (s.arca.voucher c) := by
  have hview : (Tx.start s.db : DbTx).view (.attempt i) = some b := hrow
  have hcert : reconcileCertificate (Tx.start s.db : DbTx).view i = some (b, k) := by
    simp [reconcileCertificate, hrow, hopen, hk]
  have hreconcile : s.reconcile (Tx.start s.db) i reply = some ((feCompConsultar reply).bind
      (reconcileFound s.clock (Tx.start s.db) i (some m))) := by
    unfold Sys.reconcile
    rw [hcert]
    simp only [start_view, hauth, ← hc, ht.honest, if_pos, hm]
  rw [hreconcile]
  cases hv : s.arca.voucher c with
  | none =>
    have hwrite := writeArca_writeAttempt (m := m) (f := Attempt.markAborted s.clock
      "ARCA reports no voucher for this number; the request was not registered.")
      (g := fun st => { st with
        arcaState := .pending
        errorMessage :=
          some "ARCA has no record of the previous request; the invoice can be authorized again." })
      hview
    refine ⟨_, by rw [ht.none hv]; rfl, ⟨_, _, hwrite, rfl⟩, ?_⟩
    rw [hwrite]
    exact .aborted (pairWrite_attempt_self ..) rfl rfl (by rw [pairWrite_move_self])
  | some v =>
    obtain ⟨-, found, due, hfound, hcae, hdue⟩ := ht.some v hv
    have hwrite := writeArca_writeAttempt (m := m)
      (f := Attempt.markAuthorized s.clock found.cae due (some found.raw) 0)
      (g := fun st => { st with
        arcaState := .authorized
        cae := found.cae
        caeDueDate := due
        errorMessage := none
        errorCode := none }) hview
    refine ⟨_, by rw [hfound]; simp only [Except.bind, reconcileFound, hdue, bind]; rfl,
      ⟨_, _, hwrite, rfl⟩, ?_⟩
    rw [hwrite]
    exact .authorized (pairWrite_attempt_self ..) rfl rfl hcae (by rw [pairWrite_move_self])
      (by rw [pairWrite_move_self]; exact hcae)

/-! ## One attempt -/

/-- The discipline, with no two live attempts of one document. -/
structure Orderly (s : Sys W) (a : Act W) : Prop where
  disciplined : Disciplined s a
  documents : documentFree s a

instance [Fintype W] (s : Sys W) (a : Act W) : Decidable (Orderly s a) :=
  decidable_of_iff (Disciplined s a ∧ documentFree s a) ⟨fun h => ⟨h.1, h.2⟩, fun h => ⟨h.1, h.2⟩⟩

theorem orderly_disciplined (h : Reachable (system P) Orderly s) : Reachable (system P) Disciplined s :=
  reachable_mono (fun _ _ _ _ hok => hok.disciplined) h

theorem orderly_playDistinct (h : Reachable (system P) Orderly s) : PlayDistinct s :=
  reachable_playDistinct (reachable_mono (fun _ _ _ _ hok => hok.documents) h)

omit [DecidableEq W] in
theorem unique_of_play {v : View} (h : PlayDistinct s)
    (hplay : ∀ i c, v (.attempt i) = some c → c.state = .authorized → ∃ b : Attempt,
      s.db.row (.attempt i) = some b ∧ c.toEvidence = b.toEvidence ∧ InPlay AttemptState.isLive s i) :
    uniqueAuthorized v s.nextAttempt := by
  have hdocument : ∀ {i d}, authorizedDocument v i = some d → ∃ b : Attempt,
      s.db.row (.attempt i) = some b ∧ b.document = d ∧ InPlay AttemptState.isLive s i := by
    intro i d hd
    obtain ⟨c, hc, hdoc⟩ := Option.bind_eq_some_iff.mp hd
    split at hdoc
    · next hst =>
      obtain ⟨b, hb, hev, hlive⟩ := hplay i c hc hst
      exact ⟨b, hb, by rw [← Option.some.inj hdoc, hev], hlive⟩
    · cases hdoc
  intro i _ j _ hi hij
  obtain ⟨d, hd⟩ := Option.ne_none_iff_exists'.mp hi
  obtain ⟨b, hb, hbd, hbplay⟩ := hdocument hd
  obtain ⟨c, hc, hcd, hcplay⟩ := hdocument (hij ▸ hd)
  exact h i j b c hbplay hcplay hb hc (hbd.trans hcd.symm)

omit [DecidableEq W] in
theorem authorized_play {i : Nat} {b : Attempt} (hb : s.db.row (.attempt i) = some b)
    (hst : b.state = .authorized) : InPlay AttemptState.isLive s i :=
  .inl (by simp [hb, hst, AttemptState.isLive])

omit [DecidableEq W] in
theorem closing_unique {i m : Nat} {b c : Attempt} {st : ArcaStatus} (h : PlayDistinct s)
    (hrow : s.db.row (.attempt i) = some b) (hopen : b.state.isOpen = true)
    (hev : c.toEvidence = b.toEvidence) :
    uniqueAuthorized (s.db.apply (pairWrite (Tx.start s.db) i c m st)).row s.nextAttempt := by
  rw [apply_latest (by rfl)]
  refine unique_of_play h fun j d hd hst => ?_
  by_cases hj : j = i
  · subst hj
    rw [pairWrite_attempt_self] at hd
    cases hd
    exact ⟨b, hrow, hev, .inl (by simp [hrow, isLive_of_isOpen _ hopen])⟩
  · rw [pairWrite_attempt_ne hj, start_view] at hd
    exact ⟨d, hd, rfl, authorized_play hd hst⟩

/-- The cron's worker has its session, and nobody else is at work. -/
structure AtCron (s u : Sys W) (w : W) (queue : List Nat) : Prop where
  worker : u.worker = Function.update s.worker w ⟨some (Tx.start s.db), .ofCron queue⟩
  locks : ∀ key, u.locks key = none
  clock : u.clock = s.clock
  arca : u.arca = s.arca
  nextAttempt : u.nextAttempt = s.nextAttempt
  certificates : ∀ k, u.db.row (.certificate k) = s.db.row (.certificate k)
  attempts : ∀ i ∈ queue, u.db.row (.attempt i) = s.db.row (.attempt i)

/-- ARCA can be asked about the attempt, has nothing of it on its way, and tells. -/
structure Askable (s : Sys W) (i : Nat) (reply : SoapReply (Option ConsultResponse)) (b : Attempt)
    (m : Nat) (c : Coordinates) : Prop where
  row : s.db.row (.attempt i) = some b
  isOpen : b.state.isOpen = true
  move : b.moveId = some m
  coordinates : b.coordinates = some c
  usable : ∀ k, b.certificateId = some k →
    (s.db.row (.certificate k) : Certificate).checkUsable s.clock = .ok ()
  landed : ∀ t ∈ s.arca.sent, t.attempt = i → ¬ Arca.alive s.clock t
  tells : Tells s.arca c reply

/-- The steps of the cron for one attempt. -/
def settling (w : W) (reply : SoapReply (Option ConsultResponse)) : List (Act W) :=
  [.isolate w, .enter w, .consult w reply, .settle w]

section Settling

variable {i m : Nat} {queue : List Nat} {reply : SoapReply (Option ConsultResponse)} {b : Attempt}
  {c : Coordinates}

omit [DecidableEq W] in
theorem askable_auth {E : Nat → Environment} (hk : Kept E s) (h : Askable s i reply b m c) :
    ∃ k env cuit, b.certificateId = some k ∧ Sys.auth s.clock s.db.row k b.issuerCuit = some (env, cuit) ∧
      c = ⟨⟨env, cuit, b.posNumber, b.documentTypeCode⟩, b.documentNumber⟩ := by
  obtain ⟨k, hkb, henv⟩ := Option.map_eq_some_iff.mp (hk.db.attempts i b h.row).environment
  obtain ⟨cuit, hcuit, hc⟩ := Option.map_eq_some_iff.mp h.coordinates
  refine ⟨k, b.environment, cuit, hkb, ?_, hc.symm⟩
  simp [Sys.auth, h.usable k hkb, hcuit, (hk.db.certificates k).environment, henv]

omit [DecidableEq W] in
theorem consult_orderly {v : Sys W} (h : Askable s i reply b m c) (harca : v.arca = s.arca)
    (hclock : v.clock = s.clock) (hsend : ∀ w, (v.worker w).job.toSend? ≠ some i) {t : DbTx}
    (htarget : (v.worker w).target? = some (t, i)) (hrow : t.view (.attempt i) = some b) :
    Orderly v (.consult w reply) := by
  refine ⟨⟨?_, rfl, trivial, ?_⟩, trivial⟩
  · intro hdenies p hp
    rw [htarget] at hp
    cases hp
    refine ⟨⟨hsend, by rw [harca, hclock]; exact h.landed⟩, fun d hd => ?_⟩
    simp only [askedFor, hrow, Option.bind_some] at hd
    obtain rfl : c = d := Option.some.inj (h.coordinates.symm.trans hd)
    rw [harca]
    cases hv : s.arca.voucher c with
    | none => rfl
    | some voucher =>
      obtain ⟨-, found, due, hfound, -⟩ := h.tells.some voucher hv
      simp [deniesVoucher, hfound] at hdenies
  · cases hv : s.arca.voucher c with
    | none => simp [namesCae, h.tells.none hv]
    | some voucher =>
      obtain ⟨hne, found, due, hfound, hcae, -⟩ := h.tells.some voucher hv
      simp [namesCae, hfound, hcae, hne]

theorem settling_takes (hr : Reachable (system P) Orderly s) (hq : AllIdle s)
    (hru : Reachable (system P) Orderly u) (hcron : AtCron s u w (i :: queue)) (hnodup : i ∉ queue)
    (h : Askable s i reply b m c) :
    ∃ u', Takes (system P) Orderly u (settling w reply) u' ∧ AtCron s u' w queue ∧
      ClosedAs u'.db.row i m b (s.arca.voucher c) ∧
      ∀ k, k ≠ .attempt i → k ≠ .move m → u'.db.row k = u.db.row k := by
  obtain ⟨E, hk⟩ := reachable_kept hr
  obtain ⟨k, env, cuit, hkb, hauth, hc⟩ := askable_auth hk h
  have hrow : u.db.row (.attempt i) = some b := (hcron.attempts i List.mem_cons_self).trans h.row
  have hauth' : Sys.auth u.clock u.db.row k b.issuerCuit = some (env, cuit) := by
    unfold Sys.auth at hauth ⊢
    simp only [hcron.certificates, hcron.clock]
    exact hauth
  obtain ⟨t, ht, ⟨b', st, rfl, hev⟩, hclosed⟩ :=
    reconcile_closesWith hrow h.isOpen h.move hkb hauth' hc (hcron.arca ▸ h.tells)
  rw [hcron.arca] at hclosed
  let key := P.lockKey b.seq
  let session : DbTx := Tx.start s.db
  let during (job : Job) : Sys W := u.working w session key job
  have hworker : u.worker w = ⟨some session, .cron (i :: queue)⟩ := by
    rw [hcron.worker, Function.update_self]
    rfl
  have hisolate : step P u (.isolate w) = some (during (.isolated queue i key .locked)) := by
    have hview : session.view (.attempt i) = some b := h.row
    simp only [step, Sys.isolate, hworker, hview, hcron.locks, if_pos]
    rfl
  have henter : step P (during (.isolated queue i key .locked)) (.enter w) =
      some (during (.isolated queue i key (.working (Tx.start u.db)))) := by
    simp [step, Sys.enter, during]
  have hconsult : step P (during (.isolated queue i key (.working (Tx.start u.db)))) (.consult w reply) =
      some (during (.isolated queue i key (.settled (pairWrite (Tx.start u.db) i b' m st)))) := by
    have hsame : (during (.isolated queue i key (.working (Tx.start u.db)))).reconcile
        (Tx.start u.db) i reply = u.reconcile (Tx.start u.db) i reply := rfl
    simp [step, Sys.consult, during, hsame, ht]
  let tx : DbTx := pairWrite (Tx.start u.db) i b' m st
  let u' : Sys W := { u.setWorker w ⟨some session, .ofCron queue⟩ with db := u.db.apply tx }
  have hcommit : (during (.isolated queue i key (.settled tx))).commitTx tx = some (u.db.apply tx) := by
    have hfit : tx.commit u.db = some (u.db.apply tx) := if_pos fun _ _ => rfl
    have hunique : uniqueAuthorized (u.db.apply tx).row u.nextAttempt :=
      closing_unique (orderly_playDistinct hru) hrow h.isOpen hev
    simp [Sys.commitTx, during, hfit, hunique]
  have hsettle : step P (during (.isolated queue i key (.settled tx))) (.settle w) = some u' := by
    have hend : (during (.isolated queue i key (.settled tx))).endRun w (.ofCron queue) =
        u.setWorker w ⟨some session, .ofCron queue⟩ := working_endRun hcron.locks
    have hjob : (during (.isolated queue i key (.settled tx))).worker w =
        ⟨some session, .isolated queue i key (.settled tx)⟩ := working_worker
    simp only [step, Sys.settle, hjob, hcommit, hend, u']
  have hplain : ∀ v : Sys W, Orderly v (.isolate w) ∧ Orderly v (.enter w) ∧ Orderly v (.settle w) :=
    fun v => ⟨⟨⟨trivial, rfl, trivial, rfl⟩, trivial⟩, ⟨⟨trivial, rfl, trivial, rfl⟩, trivial⟩,
      ⟨⟨trivial, rfl, trivial, rfl⟩, trivial⟩⟩
  have hasked : Orderly (during (.isolated queue i key (.working (Tx.start u.db)))) (.consult w reply) := by
    refine consult_orderly h hcron.arca hcron.clock ?_ (t := Tx.start u.db)
      (target_isolated working_worker) hrow
    intro w' hsend
    by_cases hww : w' = w
    · subst hww
      rw [working_worker] at hsend
      cases hsend
    · simp only [during, Sys.working, Sys.setWorker, Sys.lock, Function.update_of_ne hww, hcron.worker,
        hq w'] at hsend
      cases hsend
  have hlatest : (u.db.apply tx).row = tx.view := apply_latest rfl
  refine ⟨u', .cons (hplain _).1 hisolate (.cons (hplain _).2.1 henter (.cons hasked hconsult
    (.cons (hplain _).2.2 hsettle .nil))), ⟨?_, hcron.locks, hcron.clock, hcron.arca,
      hcron.nextAttempt, ?_, ?_⟩, ?_, ?_⟩
  · simp only [u', Sys.setWorker, hcron.worker, Function.update_idem]
    rfl
  · intro j
    rw [← hcron.certificates j, show u'.db.row = tx.view from hlatest, pairWrite_certificate]
    rfl
  · intro j hj
    have hji : j ≠ i := by
      rintro rfl
      exact hnodup hj
    rw [← hcron.attempts j (List.mem_cons_of_mem _ hj), show u'.db.row = tx.view from hlatest,
      pairWrite_attempt_ne hji]
    rfl
  · rw [show u'.db.row = tx.view from hlatest]
    exact hclosed
  · intro j hji hjm
    rw [show u'.db.row = tx.view from hlatest]
    simp only [tx, pairWrite]
    rw [write_view_ne _ _ hjm, write_view_ne _ _ hji]
    rfl

end Settling

/-! ## The queue -/

/-- The row is of no attempt of the queue, nor of its invoice. -/
def Apart (s : Sys W) (queue : List Nat) (k : Key) : Prop :=
  ∀ i ∈ queue, k ≠ .attempt i ∧ ∀ b m, s.db.row (.attempt i) = some b → b.moveId = some m → k ≠ .move m

omit [DecidableEq W] in
theorem closedAs_congr {v v' : View} {i m : Nat} {b : Attempt} {voucher : Option Voucher}
    (hattempt : v' (.attempt i) = v (.attempt i)) (hmove : v' (.move m) = v (.move m))
    (h : ClosedAs v i m b voucher) : ClosedAs v' i m b voucher := by
  cases h with
  | authorized hrow hev hst hcae harca hmoveCae =>
    exact .authorized (hattempt.trans hrow) hev hst hcae (by rw [hmove]; exact harca)
      (by rw [hmove]; exact hmoveCae)
  | aborted hrow hev hst harca =>
    exact .aborted (hattempt.trans hrow) hev hst (by rw [hmove]; exact harca)

/-- What the attempts of the queue have become. -/
def QueueClosed (s u : Sys W) (queue : List Nat) : Prop :=
  ∀ i ∈ queue, ∃ b m c, s.db.row (.attempt i) = some b ∧ b.moveId = some m ∧ b.coordinates = some c ∧
    ClosedAs u.db.row i m b (s.arca.voucher c)

theorem queue_takes {queue : List Nat} {answers : Nat → SoapReply (Option ConsultResponse)}
    (hr : Reachable (system P) Orderly s) (hq : AllIdle s) (hru : Reachable (system P) Orderly u)
    (hcron : AtCron s u w queue) (hnodup : queue.Nodup)
    (hall : ∀ i ∈ queue, ∃ b m c, Askable s i (answers i) b m c) :
    ∃ u', Takes (system P) Orderly u (queue.flatMap fun i => settling w (answers i)) u' ∧
      AtCron s u' w [] ∧ QueueClosed s u' queue ∧
      ∀ k, Apart s queue k → u'.db.row k = u.db.row k := by
  induction queue generalizing u with
  | nil => exact ⟨u, .nil, hcron, nofun, fun _ _ => rfl⟩
  | cons i rest ih =>
    obtain ⟨hi, hrest⟩ := List.nodup_cons.mp hnodup
    obtain ⟨b, m, c, hask⟩ := hall i List.mem_cons_self
    obtain ⟨v, htakes, hv, hclosed, hframe⟩ := settling_takes hr hq hru hcron hi hask
    obtain ⟨u', htakes', hu', hqueue, hframe'⟩ := ih (takes_reachable hru htakes) hv hrest
      fun j hj => hall j (List.mem_cons_of_mem _ hj)
    -- No other attempt of the queue is of the same invoice.
    have hagree := (reachable_numberingKept (orderly_disciplined hr)).agreed.db m
    have hmove : Apart s rest (.move m) := by
      intro j hj
      refine ⟨nofun, ?_⟩
      rintro d n hd hn ⟨⟩
      obtain ⟨d', n', c', hask'⟩ := hall j (List.mem_cons_of_mem _ hj)
      obtain rfl : d = d' := Option.some.inj (hd.symm.trans hask'.row)
      have hlive : LiveAttempt s.db.row m i b := ⟨hask.row, hask.move, isLive_of_isOpen _ hask.isOpen⟩
      have hlive' : LiveAttempt s.db.row m j d := ⟨hd, hn, isLive_of_isOpen _ hask'.isOpen⟩
      exact hi (hagree.unique i j b d hlive hlive' ▸ hj)
    have hattempt : Apart s rest (.attempt i) :=
      fun j hj => ⟨fun heq => hi (Key.attempt.inj heq ▸ hj), fun _ _ _ _ => nofun⟩
    refine ⟨u', takes_append htakes htakes', hu', fun j hj => ?_, fun k hk => ?_⟩
    · rcases List.mem_cons.mp hj with rfl | hj
      · exact ⟨b, m, c, hask.row, hask.move, hask.coordinates,
          closedAs_congr (hframe' _ hattempt) (hframe' _ hmove) hclosed⟩
      · exact hqueue j hj
    · have hki := hk i List.mem_cons_self
      rw [hframe' k fun j hj => hk j (List.mem_cons_of_mem _ hj),
        hframe k hki.1 (hki.2 b m hask.row hask.move)]

/-! ## The cron -/

/-- One run of `_cron_reconcile_open_attempts` that nobody disturbs. -/
def cronPass (w : W) (limit : Nat) (queue : List Nat)
    (answers : Nat → SoapReply (Option ConsultResponse)) : List (Act W) :=
  [.start w, .search w limit] ++ (queue.flatMap fun i => settling w (answers i)) ++ [.commit w]

/-- The attempt's certificate is good, nothing of it is on its way, and ARCA answers. -/
structure CanAsk (s : Sys W) (i : Nat) (reply : SoapReply (Option ConsultResponse)) : Prop where
  usable : ∀ b : Attempt, s.db.row (.attempt i) = some b → ∀ k, b.certificateId = some k →
    (s.db.row (.certificate k) : Certificate).checkUsable s.clock = .ok ()
  landed : ∀ t ∈ s.arca.sent, t.attempt = i → ¬ Arca.alive s.clock t
  tells : ∀ b : Attempt, s.db.row (.attempt i) = some b → ∀ c, b.coordinates = some c →
    Tells s.arca c reply

omit [DecidableEq W] in
theorem cronSearch_spec {now limit n i : Nat} {v : View} (h : i ∈ cronSearch now v n limit) :
    ∃ b : Attempt, v (.attempt i) = some b ∧ b.state.isOpen = true := by
  obtain ⟨-, hstale⟩ := List.mem_filter.mp (List.mem_of_mem_take h)
  obtain ⟨b, hb, hold⟩ := (Option.any_eq_true _ _).mp hstale
  exact ⟨b, hb, (Bool.and_eq_true_iff.mp hold).1⟩

theorem canAsk_askable {i limit : Nat} {reply : SoapReply (Option ConsultResponse)}
    (hr : Reachable (system P) Orderly s) (hi : i ∈ cronSearch s.clock s.db.row s.nextAttempt limit)
    (h : CanAsk s i reply) : ∃ b m c, Askable s i reply b m c := by
  obtain ⟨b, hb, hopen⟩ := cronSearch_spec hi
  obtain ⟨m, hm⟩ := Option.ne_none_iff_exists'.mp ((reachable_sound hr).known i b hb).2
  obtain ⟨c, hc⟩ := Option.ne_none_iff_exists'.mp
    ((reachable_numberingKept (orderly_disciplined hr)).entered.db.attempts i b hb).coordinates
  exact ⟨b, m, c, hb, hopen, hm, hc, h.usable b hb, h.landed, h.tells b hb c hc⟩

namespace Office

def isIdle (v : Worker) : Bool :=
  match v with
  | ⟨none, .idle⟩ => true
  | _ => false

theorem allIdle_spec {s : Sys (Fin 3)} (h : (List.finRange 3).all fun w => isIdle (s.worker w)) :
    AllIdle s := by
  intro w
  have hw := List.all_eq_true.mp h w (List.mem_finRange w)
  unfold isIdle at hw
  split at hw
  · next heq => exact heq
  · cases hw

theorem voucherFound_tells {arca : Arca} {c : Coordinates} {v : Voucher}
    (hv : arca.voucher c = some v) (hne : v.cae ≠ "") : Tells arca c (voucherFound v.cae) := by
  refine ⟨by simp [Arca.honestConsult, voucherFound, collectErrors, Group.entries, hv], fun hnone => ?_, fun v' hv' => ?_⟩
  · rw [hv] at hnone
    cases hnone
  · rw [hv] at hv'
    cases hv'
    exact ⟨hne, _, some ⟨2026, 1, 25⟩, rfl, rfl,
      (by decide : dateField (parseArcaDate (some "20260125")) = .ok (some ⟨2026, 1, 25⟩))⟩

end Office

end ArcaEdi
