import ArcaEdi.Log
import ArcaEdi.Documents

/-!
# The certificates of open attempts

A reconciliation asks ARCA with the certificate that its attempt recorded. When
that certificate can always be made usable, and when it is gone for good.
-/

namespace ArcaEdi

open Snapshot Runs

variable {W : Type} {P : Platform} {s s' : Sys W} {a : Act W} {w : W}

/-! ## Certificates that are gone -/

/-- A revoked certificate, whose key was erased. -/
structure Gone (c : Certificate) : Prop where
  revoked : c.state = .revoked
  key : c.privateKey = none

theorem gone_write {now : Nat} {c c' : Certificate} (hw : CertificateWrite now c c') (h : Gone c) :
    Gone c' := by
  cases hw with
  | generate hg =>
    unfold Certificate.actionGenerateKeyAndCsr at hg
    simp only [Raise.check_eq_ok, h.revoked] at hg
    exact absurd hg.2.2.1 (by simp)
  | upload hu =>
    unfold Certificate.actionProcessCertificate at hu
    split at hu
    · simp [Certificate.loadPrivateKey, h.key, bind, Except.bind] at hu
    · exact absurd hu Raise.throw_ne_ok
  | revoke => exact ⟨rfl, rfl⟩
  | expire => simpa [Certificate.cronCheckExpiration, h.revoked] using h

theorem gone_writes {now : Nat} {c c' : Certificate}
    (hw : Relation.ReflTransGen (CertificateWrite now) c c') (h : Gone c) : Gone c' := by
  induction hw with
  | refl => exact h
  | tail _ hw ih => exact gone_write hw ih

theorem gone_unusable {now : Nat} {c : Certificate} (h : Gone c) : c.checkUsable now ≠ .ok () := by
  simp [Certificate.checkUsable, h.revoked, Raise.throw_ne_ok]

/-- No transaction brings back a certificate that its snapshot has as gone. -/
def LeavesGone (t : DbTx) : Prop :=
  ∀ k, Gone (t.snap.row (.certificate k)) → Gone (t.view (.certificate k))

theorem leavesGone_ticket (db : Db) (k : Nat) (new : Ticket) : LeavesGone (ticketTx db k new) := by
  intro j hj
  by_cases hjk : j = k
  · subst hjk
    rw [ticketTx, write_view_self]
    exact ⟨hj.revoked, hj.key⟩
  · rw [ticketTx, write_view_ne _ _ (by simpa using hjk)]
    exact hj

variable [DecidableEq W]

theorem leavesGone_step (hs : Sound s) (hg : ∀ t, Live s t → LeavesGone t) (h : Step P s a s') :
    ∀ t, Live s' t → LeavesGone t := by
  refine (views_step (D := fun _ => True) (T := LeavesGone) hs h (fun _ => id)
    (leavesGone_ticket s.db) ?_ (fun _ _ _ _ => trivial) trivial hg).2
  intro t t' hw ht k hk
  rw [writes_snap hs hw] at hk
  exact gone_writes (writes_certificate hs hw k) (ht k hk)

theorem reachable_leavesGone {ok : Sys W → Act W → Prop} (h : Reachable (system P) ok s) :
    ∀ t, Live s t → LeavesGone t :=
  reachable_inv (P := fun s => ∀ t, Live s t → LeavesGone t)
    (fun _ hi t ht => absurd ht (initial_not_live hi t))
    (fun _ _ _ hr _ hg h => leavesGone_step (reachable_sound hr) hg (step_cases h)) h

theorem gone_step {k : Nat} (hs : Sound s) (hg : ∀ t, Live s t → LeavesGone t)
    (hk : Gone (s.db.row (.certificate k))) (h : Step P s a s') :
    Gone (s'.db.row (.certificate k)) := by
  rcases step_commits h with hdb | ⟨t, ht, hc⟩
  · rw [hdb]
    exact hk
  · have hleaves : LeavesGone t := by
      cases ht with
      | session hw => exact hg _ (live_session (congrArg Worker.session hw))
      | checkpoint hw | settle hw | isolated hw => exact hg _ (live_work hw rfl)
      | ticket => exact leavesGone_ticket s.db _ _
    rcases commit_row (ht.isolated_tx hs) hc (.certificate k) with hrow | ⟨hsnap, hview⟩
    · rw [hrow]
      exact hk
    · rw [hview]
      rw [hsnap] at hk
      exact hleaves k hk

theorem gone_forever {t : Sys W} {k : Nat} {ok : Sys W → Act W → Prop}
    (hs : Reachable (system P) ok s) (ht : Leads (system P) ok s t)
    (hk : Gone (s.db.row (.certificate k))) : Gone (t.db.row (.certificate k)) :=
  leads_keep (P := fun t => Gone (t.db.row (.certificate k))) hs
    (fun _ _ _ hr _ hg h => gone_step (reachable_sound hr) (reachable_leavesGone hr) hg (step_cases h))
    ht hk

/-! ## Certificates in use -/

/-- A session does not commit the revocation of a certificate that an open
attempt recorded, and a run does not commit an attempt whose certificate has
been revoked. -/
def keepsCertificates (s : Sys W) : Act W → Prop
  | .commit w => ∀ t ∈ (s.worker w).session, ∀ i < s.nextAttempt, InPlay AttemptState.isOpen s i →
    ∀ b ∈ s.db.row (.attempt i), ∀ k ∈ b.certificateId,
      (t.view (.certificate k) : Certificate).state ≠ .revoked
  | .checkpoint w => ∀ p ∈ (s.worker w).job.prepared?, ∀ b ∈ p.1.view (.attempt p.2),
    ∀ k ∈ b.certificateId, (s.db.row (.certificate k) : Certificate).state ≠ .revoked
  | _ => True

instance [Fintype W] (s : Sys W) (a : Act W) : Decidable (keepsCertificates s a) :=
  match a with
  | .commit w => inferInstanceAs (Decidable (∀ t ∈ (s.worker w).session, ∀ i < s.nextAttempt,
      InPlay AttemptState.isOpen s i → ∀ b ∈ s.db.row (.attempt i), ∀ k ∈ b.certificateId,
        (t.view (.certificate k) : Certificate).state ≠ .revoked))
  | .checkpoint w => inferInstanceAs (Decidable (∀ p ∈ (s.worker w).job.prepared?,
      ∀ b ∈ p.1.view (.attempt p.2), ∀ k ∈ b.certificateId,
        (s.db.row (.certificate k) : Certificate).state ≠ .revoked))
  | .tick | .start _ | .user _ _ | .rollback _ | .request _ _ | .enter _
  | .lastAuthorized _ _ | .resume _ | .sendFails _ _ | .transmit _ | .answer _ _ _
  | .reconcileMove _ _ | .reconcileAttempts _ _ | .search _ _ | .isolate _ | .consult _ _ | .skip _
  | .settle _ | .abort _ | .kill _ | .ticket _ _ | .record _ _ | .refuse _ | .elsewhere _ _ =>
    isTrue trivial

theorem revoked_step {k : Nat} (hs : Sound s) (hsc : Scoped s) (h : Step P s a s')
    (hk : (s'.db.row (.certificate k) : Certificate).state = .revoked) :
    (s.db.row (.certificate k) : Certificate).state = .revoked ∨ ∃ w t, a = .commit w ∧
      (s.worker w).session = some t ∧ (t.view (.certificate k) : Certificate).state = .revoked := by
  rcases step_commits h with hdb | ⟨t, ht, hc⟩
  · exact .inl (hdb ▸ hk)
  rcases commit_row (ht.isolated_tx hs) hc (.certificate k) with hrow | ⟨hsnap, hview⟩
  · exact .inl (hrow ▸ hk)
  rw [hview] at hk
  have honly : ∀ i, Only t i → (s.db.row (.certificate k) : Certificate).state = .revoked := by
    intro i ho
    rw [ho _ (by simp) (by simp)] at hk
    rw [hsnap]
    exact hk
  cases ht with
  | @session w t hw => exact .inr ⟨w, t, rfl, congrArg Worker.session hw, hk⟩
  | checkpoint hw | settle hw => exact .inl (honly _ (job_scope hsc hw))
  | isolated hw => exact .inl (honly _ (job_scope hsc hw).1)
  | @ticket j new =>
    by_cases hkj : k = j
    · subst hkj
      rw [ticketTx, write_view_self] at hk
      exact .inl hk
    · rw [ticketTx, write_view_ne _ _ (by simpa using hkj)] at hk
      exact .inl hk

/-- No certificate of an open attempt is revoked. -/
def CertificatesHeld (s : Sys W) : Prop :=
  ∀ i b k, InPlay AttemptState.isOpen s i → s.db.row (.attempt i) = some b →
    b.certificateId = some k → (s.db.row (.certificate k) : Certificate).state ≠ .revoked

theorem certificatesHeld_step (hs : Sound s) (hsc : Scoped s) (hcom : Committed s)
    (hok : keepsCertificates s a) (hh : CertificatesHeld s) (h : Step P s a s') :
    CertificatesHeld s' := by
  intro i b k hi hb hk hrevoked
  have hstep := revoked_step hs hsc h hrevoked
  cases play_step (fun _ => id) hs hsc hcom h hi hb with
  | kept hp hc hev =>
    have hkc := (congrArg Evidence.certificateId hev).symm.trans hk
    rcases hstep with hold | ⟨w, t, rfl, ht, hview⟩
    · exact hh i _ k hp hc hkc hold
    · exact hok t ht i (hs.known i _ hc).1 hp _ hc k hkc hview
  | @created w m key t r c hw hc hev =>
    have hkc := (congrArg Evidence.certificateId hev).symm.trans hk
    rcases hstep with hold | ⟨w', t', ha, -⟩
    · exact hok (t, i) (by rw [hw]; rfl) c hc k hkc hold
    · cases ha

theorem reachable_certificatesHeld (h : Reachable (system P) keepsCertificates s) :
    CertificatesHeld s := by
  refine reachable_inv ?_ ?_ h
  · intro s hi i b k _ hb
    rw [hi.attempts i] at hb
    cases hb
  · intro s a s' hr hok hh h
    exact certificatesHeld_step (reachable_sound hr) (reachable_scoped hr) (reachable_committed hr) hok
      hh (step_cases h)

/-! ## Renewal -/

section Renewal

variable {now k : Nat} {c : Certificate} {db : Db}

/-- The certificate that ARCA issues for a key, valid until this moment. -/
def issued (now : Nat) (key : PrivateKey) : X509 := ⟨key.publicNumbers, none, 0, now⟩

/-- What a user does about a certificate that cannot be used. -/
def renewal (now k : Nat) (c : Certificate) : List UserOp :=
  match c.privateKey with
  | some key => [.processCertificate k (some (issued now key))]
  | none => [.generateKeyAndCsr k true ⟨0⟩, .processCertificate k (some (issued now ⟨0⟩))]

def runAll (now : Nat) (t : DbTx) (ops : List UserOp) : Except Exn DbTx :=
  ops.foldlM (fun t op => op.run now t) t

/-- The transaction writes one certificate, and leaves it usable. -/
structure Renews (db : Db) (now k : Nat) (t : DbTx) : Prop where
  snap : t.snap = db
  dirty : Key.certificate k ∈ t.dirty
  usable : (t.view (.certificate k) : Certificate).checkUsable now = .ok ()
  others : ∀ j, j ≠ .certificate k → t.view j = db.row j

theorem upload_usable {key : PrivateKey} (hkey : c.privateKey = some key) (now : Nat) :
    ∃ c', c.actionProcessCertificate now (some (issued now key)) = .ok c' ∧
      c'.checkUsable now = .ok () := by
  refine ⟨{ c with
    certificate := some (.pem (issued now key))
    certDateStart := some 0
    certDateEnd := some now
    state := .active
    tokenCache := [] }, ?_, ?_⟩
  · simp [Certificate.actionProcessCertificate, Certificate.loadPrivateKey, hkey, issued,
      Certificate.checkCertificateHolderCuit, bind, Except.bind, pure, Except.pure]
  · simp [Certificate.checkUsable, hkey, pure, Except.pure]

theorem renews_upload {t : DbTx} {key : PrivateKey} (hsnap : t.snap = db)
    (hkey : (t.view (.certificate k) : Certificate).privateKey = some key)
    (hothers : ∀ j, j ≠ .certificate k → t.view j = db.row j) :
    ∃ t', UserOp.run now t (.processCertificate k (some (issued now key))) = .ok t' ∧
      Renews db now k t' := by
  obtain ⟨c', hc', husable⟩ := upload_usable hkey now
  refine ⟨t.write (.certificate k) c', ?_, hsnap, List.mem_cons_self, ?_, fun j hj => ?_⟩
  · simp [UserOp.run, writeCertificate, hc', bind, Except.bind, pure, Except.pure]
  · rw [write_view_self]
    exact husable
  · rw [write_view_ne _ _ hj]
    exact hothers j hj

theorem renewal_renews (now : Nat) (hrow : (db.row (.certificate k) : Certificate).privateKey = none →
      (db.row (.certificate k) : Certificate).state = .draft) :
    ∃ t, runAll now (Tx.start db) (renewal now k (db.row (.certificate k))) = .ok t ∧
      Renews db now k t := by
  unfold renewal
  cases hkey : (db.row (.certificate k) : Certificate).privateKey with
  | some key =>
    obtain ⟨t', hrun, hrenews⟩ := renews_upload (t := Tx.start db) rfl hkey (fun j _ => rfl)
    exact ⟨t', by simp [runAll, hrun, bind, Except.bind, pure, Except.pure], hrenews⟩
  | none =>
    obtain ⟨t, hgen, hsnap, hkeyed, hothers⟩ : ∃ t : DbTx,
        UserOp.run now (Tx.start db) (.generateKeyAndCsr k true ⟨0⟩) = .ok t ∧ t.snap = db ∧
          (t.view (.certificate k) : Certificate).privateKey = some ⟨0⟩ ∧
          ∀ j, j ≠ .certificate k → t.view j = db.row j := by
      refine ⟨(Tx.start db).write (.certificate k) { (db.row (.certificate k) : Certificate) with
        privateKey := some ⟨0⟩
        csrPem := some ⟨0, s!"CUIT {(db.row (.certificate k) : Certificate).getHolderCuit}"⟩
        state := .csrGenerated }, ?_, rfl, ?_, fun j hj => write_view_ne _ _ hj⟩
      · simp [UserOp.run, writeCertificate, Certificate.actionGenerateKeyAndCsr, hrow hkey, bind,
          Except.bind, pure, Except.pure]
      · rw [write_view_self]
    obtain ⟨t', hrun, hrenews⟩ := renews_upload hsnap hkeyed hothers
    exact ⟨t', by simp [runAll, hgen, hrun, bind, Except.bind, pure, Except.pure], hrenews⟩

end Renewal

/-- A worker in its session, with nothing committed since `s`. -/
structure InSession (s u : Sys W) (w : W) (t : DbTx) : Prop where
  worker : u.worker w = ⟨some t, .idle⟩
  db : u.db = s.db
  clock : u.clock = s.clock
  nextAttempt : u.nextAttempt = s.nextAttempt

theorem session_ops {ops : List UserOp} {u : Sys W} {t t' : DbTx}
    (hu : Leads (system P) Always s u) (hin : InSession s u w t)
    (hrun : runAll s.clock t ops = .ok t') :
    ∃ u', Leads (system P) Always s u' ∧ InSession s u' w t' := by
  induction ops generalizing u t with
  | nil =>
    cases hrun
    exact ⟨u, hu, hin⟩
  | cons op rest ih =>
    rw [runAll, List.foldlM_cons] at hrun
    obtain ⟨t1, hop, hrest⟩ := Raise.bind_eq_ok.mp hrun
    refine ih (u := u.setWorker w ⟨some t1, .idle⟩) (hu.step (a := .user w op) trivial ?_)
      ⟨Function.update_self .., hin.db, hin.clock, hin.nextAttempt⟩ hrest
    simp [system, step, Sys.user, hin.worker, hin.clock, hop]

theorem session_leads {ops : List UserOp} {t : DbTx} (w : W)
    (hrun : runAll s.clock (Tx.start s.db) ops = .ok t) (hsnap : t.snap = s.db)
    (hu : uniqueAuthorized (s.db.apply t).row s.nextAttempt) :
    ∃ u, Leads (system P) Always s u ∧ u.db = s.db.apply t ∧ u.clock = s.clock := by
  have hkill : Leads (system P) Always s (s.kill w) := .step (a := .kill w) .refl trivial rfl
  have hstart : Leads (system P) Always s
      ((s.kill w).setWorker w ⟨some (Tx.start s.db), .idle⟩) := by
    refine .step (a := .start w) hkill trivial ?_
    simp [system, step, Sys.start]
  obtain ⟨u, hu', hin⟩ := session_ops hstart
    ⟨Function.update_self .., rfl, rfl, rfl⟩ hrun
  have hcommit : u.commitTx t = some (s.db.apply t) := by
    have hfit : t.fits s.db := fun k _ => by rw [hsnap]
    simp [Sys.commitTx, hin.db, Tx.commit, hfit, hin.nextAttempt, hu]
  refine ⟨{ u.setWorker w ⟨none, .idle⟩ with db := s.db.apply t },
    .step (a := .commit w) hu' trivial ?_, rfl, hin.clock⟩
  simp [system, step, Sys.commit, hin.worker, hcommit]

/-- In every run under the condition, the certificate of an open attempt can be
made usable, with the attempt as it is. -/
theorem open_attempt_recoverable {i k : Nat} {b : Attempt} (w : W)
    (hs : Reachable (system P) keepsCertificates s) (hb : s.db.row (.attempt i) = some b)
    (hopen : b.state.isOpen = true) (hk : b.certificateId = some k) :
    ∃ t, Leads (system P) Always s t ∧ t.db.row (.attempt i) = some b ∧
      (t.db.row (.certificate k) : Certificate).checkUsable t.clock = .ok () := by
  obtain ⟨E, hkept⟩ := reachable_kept hs
  have hheld : (s.db.row (.certificate k) : Certificate).state ≠ .revoked :=
    reachable_certificatesHeld hs i b k (.inl (by simp [hb, hopen])) hb hk
  have hkey : (s.db.row (.certificate k) : Certificate).privateKey = none →
      (s.db.row (.certificate k) : Certificate).state = .draft := by
    intro hnone
    by_contra hdraft
    exact (hkept.db.certificates k).key hdraft hheld hnone
  obtain ⟨t, hrun, hrenews⟩ := renewal_renews s.clock hkey
  have hattempts : ∀ j, (s.db.apply t).row (.attempt j) = s.db.row (.attempt j) := by
    intro j
    rcases apply_row s.db t (.attempt j) with hrow | hview
    · exact hrow
    · rw [hview]
      exact hrenews.others _ (by simp)
  have hunique : uniqueAuthorized (s.db.apply t).row s.nextAttempt := by
    intro i _ j _
    simp only [authorizedDocument, hattempts]
    exact reachable_indexed hs i j
  obtain ⟨u, hu, hdb, hclock⟩ := session_leads (P := P) w hrun hrenews.snap hunique
  refine ⟨u, hu, ?_, ?_⟩
  · rw [hdb, hattempts]
    exact hb
  · rw [hdb, apply_row_dirty s.db hrenews.dirty, hclock]
    exact hrenews.usable

theorem open_attempt_recoverable_expired :
    ∃ (s : Sys (Fin 3)) (b : Attempt), Reachable (system Office.platform) keepsCertificates s ∧
      s.db.row (.attempt 0) = some b ∧ b.state = .uncertain ∧
      (s.db.row (.certificate 0) : Certificate).state = .expired ∧
      ∃ t, Leads (system Office.platform) Always s t ∧ t.db.row (.attempt 0) = some b ∧
        (t.db.row (.certificate 0) : Certificate).checkUsable t.clock = .ok () := by
  obtain ⟨s, hs, hst⟩ := Office.reaches keepsCertificates
    ([.start 2, .user 2 (.generateKeyAndCsr 0 true ⟨7⟩),
      .user 2 (.processCertificate 0 (some ⟨7, none, 0, 0⟩)), .user 2 (.posting 0 none), .commit 2] ++
      Office.recorded 0 0 0 ++ Office.lost 0 ++
      [.tick, .start 2, .user 2 (.checkExpiration [0]), .commit 2])
    (fun s => ((s.db.row (.attempt 0)).any fun b =>
      b.state == .uncertain && b.certificateId == some 0) &&
      (s.db.row (.certificate 0) : Certificate).state == .expired) (by decide +kernel)
  rw [Bool.and_eq_true, beq_iff_eq] at hst
  obtain ⟨b, hb, hattempt⟩ := (Option.any_eq_true _ _).mp hst.1
  rw [Bool.and_eq_true, beq_iff_eq, beq_iff_eq] at hattempt
  exact ⟨s, b, hs, hb, hattempt.1, hst.2,
    open_attempt_recoverable 2 hs hb (by rw [hattempt.1]; rfl) hattempt.2⟩

/-- The process dies with an open attempt, and its certificate is revoked. No
run makes it usable again. -/
theorem unrecoverable_attempt :
    ∃ (s : Sys (Fin 3)) (b : Attempt), Reachable (system Office.platform) Always s ∧
      s.db.row (.attempt 0) = some b ∧ b.state = .sent ∧ b.certificateId = some 0 ∧
      ∀ t, Leads (system Office.platform) Always s t →
        (t.db.row (.certificate 0) : Certificate).checkUsable t.clock ≠ .ok () := by
  obtain ⟨s, hs, hst⟩ := Office.reaches Always
    (Office.posted 0 0 ++ Office.recorded 0 0 0 ++ [.kill 0, .start 2, .user 2 (.revoke 0), .commit 2])
    (fun s => ((s.db.row (.attempt 0)).any fun b => b.state == .sent && b.certificateId == some 0) &&
      ((s.db.row (.certificate 0) : Certificate).state == .revoked &&
        (s.db.row (.certificate 0) : Certificate).privateKey == none)) (by decide +kernel)
  rw [Bool.and_eq_true, Bool.and_eq_true, beq_iff_eq, beq_iff_eq] at hst
  obtain ⟨hattempt, hrevoked, hkey⟩ := hst
  obtain ⟨b, hb, hst⟩ := (Option.any_eq_true _ _).mp hattempt
  rw [Bool.and_eq_true, beq_iff_eq, beq_iff_eq] at hst
  exact ⟨s, b, hs, hb, hst.1, hst.2,
    fun t ht => gone_unusable (gone_forever hs ht ⟨hrevoked, hkey⟩)⟩

end ArcaEdi
