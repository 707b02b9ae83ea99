import ArcaEdi.Effects
import ArcaEdi.Lib.Raise
import Mathlib.Logic.Relation

/-!
# What each write does

One lemma per operation that writes. An attempt and its invoice are always
written together, as `pairWrite` does.
-/

namespace ArcaEdi

open Snapshot Raise

/-! ## An attempt and its invoice -/

/-- The one write that there is: an attempt, and its invoice with it. -/
def pairWrite (t : DbTx) (i : Nat) (a : Attempt) (m : Nat) (st : ArcaStatus) : DbTx :=
  (t.write (.attempt i) (some a)).write (.move m) { (t.view (.move m) : Move) with toArcaStatus := st }

section PairWrite

variable (t : DbTx) (i : Nat) (a : Attempt) (m : Nat) (st : ArcaStatus)

@[simp] theorem pairWrite_snap : (pairWrite t i a m st).snap = t.snap := rfl
@[simp] theorem pairWrite_dirty :
    (pairWrite t i a m st).dirty = .move m :: .attempt i :: t.dirty := rfl
@[simp] theorem pairWrite_move_self :
    (pairWrite t i a m st).view (.move m) = { (t.view (.move m) : Move) with toArcaStatus := st } :=
  write_view_self ..
@[simp] theorem pairWrite_attempt_self : (pairWrite t i a m st).view (.attempt i) = some a := by
  rw [pairWrite, write_view_ne _ _ (by simp), write_view_self]

variable {t i a m st}

theorem pairWrite_move_ne {m' : Nat} (h : m' ≠ m) :
    (pairWrite t i a m st).view (.move m') = t.view (.move m') := by
  rw [pairWrite, write_view_ne _ _ (by simpa using h), write_view_ne _ _ (by simp)]

theorem pairWrite_attempt_ne {j : Nat} (h : j ≠ i) :
    (pairWrite t i a m st).view (.attempt j) = t.view (.attempt j) := by
  rw [pairWrite, write_view_ne _ _ (by simp), write_view_ne _ _ (by simpa using h)]

@[simp] theorem pairWrite_company (c : Nat) :
    (pairWrite t i a m st).view (.company c) = t.view (.company c) := by
  rw [pairWrite, write_view_ne _ _ (by simp), write_view_ne _ _ (by simp)]
@[simp] theorem pairWrite_certificate (k : Nat) :
    (pairWrite t i a m st).view (.certificate k) = t.view (.certificate k) := by
  rw [pairWrite, write_view_ne _ _ (by simp), write_view_ne _ _ (by simp)]

theorem writeArca_writeAttempt {f : Attempt → Attempt} {g : ArcaStatus → ArcaStatus}
    (h : t.view (.attempt i) = some a) :
    writeArca (writeAttempt t i f) m g =
      pairWrite t i (f a) m (g (t.view (.move m) : Move).toArcaStatus) := by
  have hmove : (t.write (.attempt i) (some (f a))).view (.move m) = t.view (.move m) :=
    write_view_ne _ _ (by simp)
  rw [writeArca, writeAttempt, h, Option.map_some, hmove, pairWrite]

end PairWrite

/-! ## Outcomes -/

/-- The states that one outcome leaves on the attempt and on its invoice. -/
inductive Outcome (a : Attempt) (st : ArcaStatus) : Prop
  | uncertain (ha : a.state = .uncertain) (hst : st.arcaState = .uncertain)
  | closed (ha : a.state = .aborted ∨ a.state = .rejected)
      (hst : st.arcaState = .rejected ∨ st.arcaState = .pending) (hr : a.resolvedAt ≠ none)
  | authorized (ha : a.state = .authorized) (hst : st.arcaState = .authorized)
      (hcae : st.cae = a.cae) (hdue : st.caeDueDate = a.caeDueDate) (hr : a.resolvedAt ≠ none)

/-- What the result of `fe_cae_solicitar` makes of the attempt. -/
inductive Concludes (result : Except Exn CaeResult) (a : Attempt) : Prop
  | uncertain (ha : a.state = .uncertain)
  | aborted (ha : a.state = .aborted) {e : ArcaError} (he : e.kind = .aborted)
      (hr : result = .error (.arca e))
  | rejected (ha : a.state = .rejected) {e : ArcaError} (he : e.kind = .businessError)
      (hr : result = .error (.arca e))
  | authorized (ha : a.state = .authorized) {r : CaeResult} (hcae : a.cae = r.cae)
      (hr : result = .ok r)

theorem outcome_spec {now durationMs m i : Nat} {t t' : DbTx} {a : Attempt}
    {result : Except Exn CaeResult} (hview : t.view (.attempt i) = some a)
    (h : authorizeOutcome now durationMs t m i result = .ok t') :
    ∃ b st, t' = pairWrite t i b m st ∧ b.toEvidence = a.toEvidence ∧ Outcome b st ∧
      Concludes result b := by
  unfold authorizeOutcome at h
  split at h
  · next message _ _ =>
    cases h
    exact ⟨_, _, writeArca_writeAttempt hview, rfl, .uncertain rfl rfl, .uncertain rfl⟩
  · cases h
    exact ⟨_, _, writeArca_writeAttempt hview, rfl,
      .closed (.inl rfl) (.inl rfl) (by simp [Attempt.markAborted]), .aborted rfl rfl rfl⟩
  · cases h
    exact ⟨_, _, writeArca_writeAttempt hview, rfl,
      .closed (.inr rfl) (.inl rfl) (by simp [Attempt.markRejected]), .rejected rfl rfl rfl⟩
  · cases h
  · next r =>
    simp only [bind_eq_ok, pure_eq_ok] at h
    obtain ⟨due, -, rfl⟩ := h
    exact ⟨_, _, writeArca_writeAttempt hview, rfl,
      .authorized rfl rfl rfl rfl (by simp [Attempt.markAuthorized]), .authorized rfl rfl rfl⟩

/-! ## Reconciliation -/

variable {W : Type} {s : Sys W}

/-- One reconciliation that reached its writes. -/
structure Reconciles (s : Sys W) (t : DbTx) (i : Nat) (reply : SoapReply (Option ConsultResponse))
    (t' : DbTx) (a : Attempt) (m k : Nat) (env : Environment) (cuit : Int) (found : Option Found)
    (b : Attempt) (st : ArcaStatus) : Prop where
  view : t.view (.attempt i) = some a
  isOpen : a.state.isOpen = true
  certificate : a.certificateId = some k
  move : a.moveId = some m
  auth : Sys.auth s.clock t.view k a.issuerCuit = some (env, cuit)
  honest : s.arca.honestConsult
    ⟨⟨env, cuit, a.posNumber, a.documentTypeCode⟩, a.documentNumber⟩ reply = true
  answer : feCompConsultar reply = .ok found
  write : t' = pairWrite t i b m st
  evidence : b.toEvidence = a.toEvidence
  outcome : Outcome b st
  notFound : found = none → b.state = .aborted
  isFound : ∀ f, found = some f → b.state = .authorized ∧ b.cae = f.cae

theorem reconcileCertificate_spec {v : View} {i k : Nat} {a : Attempt}
    (h : reconcileCertificate v i = some (a, k)) :
    v (.attempt i) = some a ∧ a.state.isOpen = true ∧ a.certificateId = some k := by
  obtain ⟨b, hb, hrest⟩ := Option.bind_eq_some_iff.mp h
  split at hrest
  · next hopen =>
    obtain ⟨k', hk', heq⟩ := Option.map_eq_some_iff.mp hrest
    cases heq
    exact ⟨hb, hopen, hk'⟩
  · cases hrest

theorem reconcileFound_spec {now i m : Nat} {t t' : DbTx} {a : Attempt} {found : Option Found}
    (hview : t.view (.attempt i) = some a)
    (h : reconcileFound now t i (some m) found = .ok t') :
    ∃ b st, t' = pairWrite t i b m st ∧ b.toEvidence = a.toEvidence ∧ Outcome b st ∧
      (found = none → b.state = .aborted) ∧
      ∀ f, found = some f → b.state = .authorized ∧ b.cae = f.cae := by
  cases found with
  | none =>
    cases h
    exact ⟨_, _, writeArca_writeAttempt hview, rfl,
      .closed (.inl rfl) (.inr rfl) (by simp [Attempt.markAborted]), fun _ => rfl, by simp⟩
  | some f =>
    simp only [reconcileFound, bind_eq_ok, pure_eq_ok] at h
    obtain ⟨due, -, rfl⟩ := h
    refine ⟨_, _, writeArca_writeAttempt hview, rfl,
      .authorized rfl rfl rfl rfl (by simp [Attempt.markAuthorized]), by simp, ?_⟩
    rintro f' hf'
    cases hf'
    exact ⟨rfl, rfl⟩

theorem reconcile_spec {t t' : DbTx} {i : Nat} {reply : SoapReply (Option ConsultResponse)}
    (hmove : ∀ a, t.view (.attempt i) = some a → a.moveId ≠ none)
    (h : s.reconcile t i reply = some (.ok t')) :
    ∃ a m k env cuit found b st, Reconciles s t i reply t' a m k env cuit found b st := by
  unfold Sys.reconcile at h
  split at h
  · next a k hcert =>
    obtain ⟨hview, hopen, hk⟩ := reconcileCertificate_spec hcert
    split at h
    · next env cuit hauth =>
      split at h
      · next hhonest =>
        obtain ⟨found, hanswer, hfound⟩ := bind_eq_ok.mp (Option.some.inj h)
        obtain ⟨m, hm⟩ := Option.ne_none_iff_exists'.mp (hmove a hview)
        rw [hm] at hfound
        obtain ⟨b, st, hwrite, hev, hout, hnone, hsome⟩ := reconcileFound_spec hview hfound
        exact ⟨a, m, k, env, cuit, found, b, st, hview, hopen, hk, hm, hauth, hhonest, hanswer,
          hwrite, hev, hout, hnone, hsome⟩
      · cases h
    · cases h
  · cases h

/-! ## The attempt of a run -/

theorem prepareRequest_spec {today : Date} {v : View} {m : Move} {docTypeCode posNumber number : Nat}
    {header : FeCabReq} {detail : FeCaeDetRequest}
    (h : m.prepareRequest today v docTypeCode posNumber number = .ok (header, detail)) :
    header = ⟨1, posNumber, docTypeCode⟩ ∧ detail.cbteDesde = number ∧ detail.cbteHasta = number ∧
      m.amounts docTypeCode = .ok (detail.amounts, detail.iva) := by
  unfold Move.prepareRequest at h
  simp only [bind_eq_ok] at h
  obtain ⟨doc, -, cur, -, am, ham, cond, -, h⟩ := h
  split at h <;>
  · simp only [bind_eq_ok, pure_eq_ok, Prod.mk.injEq] at h
    obtain ⟨_, -, _, -, rfl, rfl⟩ := h
    exact ⟨rfl, rfl, rfl, ham⟩

theorem create_spec {P : Platform} {now m i last : Nat} {t t' : DbTx} {c : Intent} {r : Request}
    (h : authorizeCreate P now t m i c last = .ok (t', r)) :
    ∃ header detail,
      (t.view (.move m) : Move).prepareRequest (P.today now) t.view c.seq.documentTypeCode
        c.seq.posNumber c.number = .ok (header, detail) ∧
      r = ⟨c.certificateId, c.seq.issuerCuit, header, detail⟩ ∧
      t' = pairWrite t i (newAttempt now t.view m c detail) m
        { (t.view (.move m) : Move).toArcaStatus with arcaState := .processing } := by
  unfold authorizeCreate at h
  simp only [bind_eq_ok, pure_eq_ok, Prod.mk.injEq] at h
  obtain ⟨-, -, ⟨header, detail⟩, hreq, rfl, rfl⟩ := h
  refine ⟨header, detail, hreq, rfl, ?_⟩
  have hmove : (t.write (.attempt i) (some (newAttempt now t.view m c detail))).view (.move m) =
      t.view (.move m) := write_view_ne _ _ (by simp)
  rw [writeArca, hmove, pairWrite]

theorem authorizeStart_spec {now m : Nat} {v : View} {c : Intent}
    (h : authorizeStart now v m = .ok c) :
    checkReady v m = .ok () ∧ getCertificate now v m = .ok c.certificateId ∧
      moveSequence v m = .ok c.seq ∧
      (v (.move m) : Move).documentNumberParts = .ok (c.seq.posNumber, c.number) ∧
      (v (.move m) : Move).documentTypeCode = .ok c.seq.documentTypeCode := by
  unfold authorizeStart at h
  simp only [bind_eq_ok] at h
  obtain ⟨⟨⟩, hready, k, hk, cuit, hcuit, code, hcode, ⟨pos, number⟩, hparts, h⟩ := h
  rw [check_eq_ok] at h
  obtain rfl := pure_eq_ok.mp h.2
  refine ⟨hready, hk, ?_, hparts, hcode⟩
  simp [moveSequence, bind_eq_ok, hparts, hcode, hcuit]

theorem checkReady_spec {v : View} {m : Nat} (h : checkReady v m = .ok ()) :
    (v (.move m) : Move).state = .posted ∧
      ((v (.move m) : Move).arcaState = .pending ∨ (v (.move m) : Move).arcaState = .rejected) := by
  unfold checkReady at h
  simp only [check_eq_ok] at h
  obtain ⟨hposted, -, h⟩ := h
  refine ⟨not_not.mp hposted, ?_⟩
  split at h
  · exact absurd h throw_ne_ok
  · exact absurd h throw_ne_ok
  · exact absurd h throw_ne_ok
  · next hst => exact .inl hst
  · next hst => exact .inr hst
  · exact absurd h throw_ne_ok

/-! ## User operations -/

/-- What a user does to one invoice. `D` holds of each invoice that goes back to draft. -/
inductive MoveWrite (D : Move → Prop) (old : Move) : Move → Prop
  | post (h : old.state = .draft) (number : Option DocumentNumber) :
      MoveWrite D old { old with state := .posted, documentNumber := number }
  | mark (h : old.arcaState = .notRequired) :
      MoveWrite D old
        { old with toArcaStatus := { old.toArcaStatus with arcaState := .pending } }
  | draft (ha : old.arcaState ≠ .authorized) (hu : old.arcaState ≠ .uncertain) (hD : D old) :
      MoveWrite D old { old with state := .draft }
  | edit (h : old.state = .draft) (form : MoveForm) :
      MoveWrite D old { old with toMoveForm := form }

/-- What a session may make of a certificate. -/
inductive CertificateWrite (now : Nat) (old : Certificate) : Certificate → Prop
  | generate {canWrite : Bool} {key : PrivateKey} {c : Certificate}
      (h : old.actionGenerateKeyAndCsr canWrite key = .ok c) : CertificateWrite now old c
  | upload {file : Option X509} {c : Certificate}
      (h : old.actionProcessCertificate now file = .ok c) : CertificateWrite now old c
  | revoke : CertificateWrite now old old.actionRevoke
  | expire : CertificateWrite now old (old.cronCheckExpiration now)

/-- One write of a user operation. `K` holds of each company that is written. -/
inductive UserWrite (now : Nat) (D : Move → Prop) (K : Nat → Company → Prop) (t : DbTx) :
    DbTx → Prop
  | move {m : Nat} {v : Move} (h : MoveWrite D (t.view (.move m)) v) :
      UserWrite now D K t (t.write (.move m) v)
  | company {c : Nat} {v : Company} (h : K c v) : UserWrite now D K t (t.write (.company c) v)
  | journal (j : Nat) (v : Journal) : UserWrite now D K t (t.write (.journal j) v)
  | certificate {k : Nat} {v : Certificate} (h : CertificateWrite now (t.view (.certificate k)) v) :
      UserWrite now D K t (t.write (.certificate k) v)

/-- What a session may write, any number of times. -/
abbrev UserWrites (now : Nat) (D : Move → Prop) (K : Nat → Company → Prop) : DbTx → DbTx → Prop :=
  Relation.ReflTransGen (UserWrite now D K)

variable {D : Move → Prop} {K : Nat → Company → Prop}

theorem writeCertificate_spec {now k : Nat} {t t' : DbTx}
    {f : Certificate → Except Exn Certificate}
    (hf : ∀ c, f (t.view (.certificate k)) = .ok c →
      CertificateWrite now (t.view (.certificate k)) c)
    (h : writeCertificate t k f = .ok t') : UserWrites now D K t t' := by
  unfold writeCertificate at h
  simp only [bind_eq_ok, pure_eq_ok] at h
  obtain ⟨c, hc, rfl⟩ := h
  exact .single (.certificate (hf c hc))

theorem post_spec {now m : Nat} {t t' : DbTx} {number : Option DocumentNumber}
    (h : post t m number = .ok t') : UserWrites now D K t t' := by
  unfold post at h
  simp only at h
  split at h
  · cases h
  · next hdraft =>
    have hpost : UserWrite now D K t _ := .move (.post (not_not.mp hdraft)
      ((t.view (.move m) : Move).documentNumber.orElse fun _ => number))
    split at h
    · next hmark =>
      cases h
      refine .tail (.single hpost) (.move ?_)
      rw [write_view_self]
      exact .mark (beq_iff_eq.mp (Bool.and_eq_true_iff.mp hmark).2)
    · cases h
      exact .single hpost

theorem buttonDraft_spec {now m : Nat} {t t' : DbTx}
    (hD : D (t.view (.move m))) (h : buttonDraft t m = .ok t') : UserWrites now D K t t' := by
  unfold buttonDraft at h
  simp only at h
  split at h
  · cases h
  · next ha =>
    split at h
    · cases h
    · next hu =>
      split at h
      · cases h
      · cases h
        exact .single (.move (.draft ha hu hD))

theorem editMove_spec {now m : Nat} {t t' : DbTx} {form : MoveForm}
    (h : editMove t m form = .ok t') : UserWrites now D K t t' := by
  unfold editMove at h
  simp only at h
  split at h
  · cases h
  · next hdraft =>
    cases h
    exact .single (.move (.edit (not_not.mp hdraft) form))

theorem checkExpiration_spec {now : Nat} {ks : List Nat} {t t' : DbTx}
    (h : UserOp.run now t (.checkExpiration ks) = .ok t') : UserWrites now D K t t' := by
  unfold UserOp.run at h
  simp only at h
  induction ks generalizing t with
  | nil =>
    cases h
    exact .refl
  | cons k rest ih =>
    rw [List.foldlM_cons] at h
    obtain ⟨u, hu, hrest⟩ := bind_eq_ok.mp h
    refine (writeCertificate_spec ?_ hu).trans (ih hrest)
    rintro c hc
    cases hc
    exact .expire

theorem user_spec {now : Nat} {op : UserOp} {t t' : DbTx}
    (hD : ∀ m, op = .resetToDraft m → D (t.view (.move m)))
    (hK : ∀ c company, op = .writeCompany c company → K c company) (h : op.run now t = .ok t') :
    UserWrites now D K t t' := by
  cases op with
  | posting m number => exact post_spec h
  | resetToDraft m => exact buttonDraft_spec (hD m rfl) h
  | edit m form => exact editMove_spec h
  | writeCompany c company =>
    unfold UserOp.run at h
    simp only [bind_eq_ok, pure_eq_ok] at h
    obtain ⟨-, -, rfl⟩ := h
    exact .single (.company (hK c company rfl))
  | writeJournal j journal =>
    cases h
    exact .single (.journal j journal)
  | generateKeyAndCsr k canWrite key => exact writeCertificate_spec (fun c hc => .generate hc) h
  | processCertificate k file => exact writeCertificate_spec (fun c hc => .upload hc) h
  | revoke k =>
    refine writeCertificate_spec (f := fun c => return c.actionRevoke) ?_ h
    rintro c hc
    cases hc
    exact .revoke
  | checkExpiration ks => exact checkExpiration_spec h

theorem user_writes {now : Nat} {op : UserOp} {t t' : DbTx} (h : op.run now t = .ok t') :
    UserWrites now (fun _ => True) (fun _ _ => True) t t' :=
  user_spec (fun _ _ => trivial) (fun _ _ _ => trivial) h

end ArcaEdi
