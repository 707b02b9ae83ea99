import ArcaEdi.RegistryInvariant

/-!
# The certificate that a company selects

`_check_l10n_ar_arca_certificate_company` reads both records, and it fires on a
write of the company only. The other side of the relation, `company_id` of a
draft certificate, is open to edits.
-/

namespace ArcaEdi.Registry

open Runs Snapshot

variable {W : Type} {P : Platform} {s s' : Sys W} {t u : DbTx} {k c : Nat}

/-- The company of a record. -/
def companyOf (r : Option Certificate) : Option Nat := r.map (·.companyId)

def selectionOf (v : View) (c : Nat) : Option Nat := (v (.company c) : Company).certificateId

/-- Every company selects a certificate of its own, or none. -/
def OwnSelections (v : View) : Prop := ∀ c, SelectsOwn v c

theorem selectsOwn_iff {v : View} :
    SelectsOwn v c ↔ ∀ k, selectionOf v c = some k → companyOf (v (.certificate k)) = some c := by
  simp [SelectsOwn, selectionOf, companyOf]

/-! ## The condition -/

/-- A save of a draft's form moves it to another company only where its company does
not select it. -/
def movesUnselected (v : View) : Op → Bool
  | .save k form _ => (v (.certificate k)).all fun c =>
      c.state != .draft || form.companyId == c.companyId || selectionOf v c.companyId != some k
  | _ => true

/-- What a commit may assume of a row that the transaction wrote: a record that it
moves is not selected by its old company meanwhile, and a record that a company
selects in it has not been moved meanwhile. -/
def fitsSelections (db : Db) (t : DbTx) : Key → Prop
  | .certificate k => ∀ c ∈ companyOf (t.snap.row (.certificate k)),
      companyOf (t.view (.certificate k)) ≠ some c →
        .company c ∈ t.dirty ∨ selectionOf db.row c ≠ some k
  | .company c => ∀ k ∈ selectionOf t.view c, .certificate k ∉ t.dirty →
      companyOf (db.row (.certificate k)) = companyOf (t.snap.row (.certificate k))

instance (db : Db) (t : DbTx) (key : Key) : Decidable (fitsSelections db t key) :=
  match key with
  | .certificate k => inferInstanceAs (Decidable (∀ c ∈ companyOf (t.snap.row (.certificate k)),
      companyOf (t.view (.certificate k)) ≠ some c →
        .company c ∈ t.dirty ∨ selectionOf db.row c ≠ some k))
  | .company c => inferInstanceAs (Decidable (∀ k ∈ selectionOf t.view c,
      .certificate k ∉ t.dirty →
        companyOf (db.row (.certificate k)) = companyOf (t.snap.row (.certificate k))))

def keepsSelections (s : Sys W) : Act W → Prop
  | .user w op => ∀ se ∈ (s.worker w).session, movesUnselected se.tx.view op = true
  | .commit w => ∀ se ∈ (s.worker w).session, ∀ key ∈ se.tx.dirty, fitsSelections s.db se.tx key
  | _ => True

instance (s : Sys W) (a : Act W) : Decidable (keepsSelections s a) :=
  match a with
  | .user w op => inferInstanceAs (Decidable (∀ se ∈ (s.worker w).session,
      movesUnselected se.tx.view op = true))
  | .commit w => inferInstanceAs (Decidable (∀ se ∈ (s.worker w).session, ∀ key ∈ se.tx.dirty,
      fitsSelections s.db se.tx key))
  | .tick _ | .start _ | .rollback _ | .ask _ _ _ | .enter _ _ | .login _ _ | .keep _ | .leave _
  | .abort _ _ | .kill _ => isTrue trivial

/-! ## One operation -/

theorem change_company {now fresh : Nat} {v : View} {op : Op} {r : Option Certificate}
    (hfresh : v (.certificate fresh) = none) (hok : movesUnselected v op = true)
    (h : RowChange now fresh v op k (v (.certificate k)) r)
    (hc : companyOf (v (.certificate k)) = some c) (hs : selectionOf v c = some k) :
    companyOf r = some c := by
  have hne : k ≠ fresh := by
    rintro rfl
    rw [hfresh] at hc
    cases hc
  generalize hr : v (.certificate k) = r0 at h hc
  cases h with
  | same => exact hc
  | created | copied => exact absurd rfl hne
  | generated | installed | revoked | expired => exact hc
  | @saved k form file c0 ho =>
    subst ho
    obtain rfl := Option.some.inj hc
    simp only [movesUnselected, hr, Option.all_some, hs, bne_self_eq_false, Bool.or_false,
      Bool.or_eq_true, bne_iff_ne, beq_iff_eq] at hok
    unfold saved
    split
    · next hd => exact congrArg some (hok.resolve_left (not_not.mpr hd))
    · rfl

theorem run_own {now fresh : Nat} {op : Op} (hv : OwnSelections t.view)
    (hfresh : t.view (.certificate fresh) = none) (hok : movesUnselected t.view op = true)
    (h : op.run now fresh t = .ok u) : OwnSelections u.view := by
  intro c
  have heffect := run_effect h
  have hcompany := heffect.company c
  generalize hu : (u.view (.company c) : Company) = company' at hcompany
  cases hcompany with
  | same =>
    refine selectsOwn_iff.mpr fun k hk => ?_
    have hk' : selectionOf t.view c = some k := by
      rw [selectionOf, hu] at hk
      exact hk
    exact change_company hfresh hok (heffect.row k) (selectsOwn_iff.mp (hv c) k hk') hk'
  | selected ho hs => exact hs

/-! ## A commit -/

theorem apply_own {db : Db} (hdb : OwnSelections db.row) (hv : OwnSelections t.view)
    (hf : Follows unguarded t.snap db) (hfit : t.fits db)
    (hok : ∀ key ∈ t.dirty, fitsSelections db t key) : OwnSelections (db.apply t).row := by
  intro c
  refine selectsOwn_iff.mpr fun k hk => ?_
  by_cases hc : Key.company c ∈ t.dirty
  · have hkv : selectionOf t.view c = some k := by
      rw [selectionOf, apply_row_dirty _ hc] at hk
      exact hk
    have hview := selectsOwn_iff.mp (hv c) k hkv
    by_cases hkd : Key.certificate k ∈ t.dirty
    · rw [apply_row_dirty _ hkd]
      exact hview
    · rw [apply_row_clean _ hkd, hok _ hc k hkv hkd, ← t.clean _ hkd]
      exact hview
  · have hkd : selectionOf db.row c = some k := by
      rw [selectionOf, apply_row_clean _ hc] at hk
      exact hk
    have hrow := selectsOwn_iff.mp (hdb c) k hkd
    by_cases hkdirty : Key.certificate k ∈ t.dirty
    · rw [apply_row_dirty _ hkdirty]
      by_contra hmoved
      have hsnap : companyOf (t.snap.row (.certificate k)) = some c := by
        rw [← fits_row_eq hf hfit hkdirty]
        exact hrow
      rcases hok _ hkdirty c hsnap hmoved with hd | hne
      · exact hc hd
      · exact hne hkd
    · rw [apply_row_clean _ hkdirty]
      exact hrow

/-! ## Every run -/

variable [DecidableEq W]

/-- The committed selections, and those that an open transaction sees. -/
structure SelectionsOwn (s : Sys W) : Prop where
  db : OwnSelections s.db.row
  txs : ∀ t ops, Open s t ops → OwnSelections t.view

theorem stored_own {cert : Certificate} {service : String} {ticket : Ticket}
    (hv : OwnSelections t.view) (hc : t.view (.certificate k) = some cert) :
    OwnSelections (t.write (.certificate k) (some (cert.storeToken service ticket))).view := by
  intro c
  refine selectsOwn_iff.mpr fun j hj => ?_
  rw [selectionOf, write_view_ne _ _ (by simp)] at hj
  have hold := selectsOwn_iff.mp (hv c) j hj
  by_cases hjk : j = k
  · subst hjk
    rw [hc] at hold
    rw [write_view_self]
    exact hold
  · rw [write_view_ne _ _ (by simpa using hjk)]
    exact hold

theorem granted_fits {service : String} {ticket : Ticket}
    (hg : (TokenStage.granted t ticket).Good k service) (db : Db) :
    ∀ key ∈ t.dirty, fitsSelections db t key := by
  obtain ⟨hdirty, cert, hsnap, -, hview⟩ := hg
  rw [hdirty]
  intro key hkey
  obtain rfl := List.mem_singleton.mp hkey
  intro c hc hmoved
  rw [hsnap] at hc
  rw [hview] at hmoved
  exact absurd hc hmoved

theorem reachable_selections (h : Reachable (system P) keepsSelections s) : SelectionsOwn s := by
  refine reachable_inv ?_ ?_ h
  · intro s hs
    refine ⟨fun c k hk => ?_, ?_⟩
    · rw [hs.selections c] at hk
      cases hk
    · exact fun t ops ht => absurd ht (initial_not_open hs)
  · intro s a s' hreach hok ih hstep
    have hsound := reachable_sound hreach
    refine ⟨?_, ?_⟩
    · cases step_db (step_cases hstep) with
      | same hd =>
        rw [hd]
        exact ih.db
      | @session w se hw ha hf hd =>
        subst ha
        have hopen : Open s se.tx (some se.ops) := ⟨w, .session hw⟩
        rw [hd]
        exact apply_own ih.db (ih.txs _ _ hopen) (hsound.txs _ _ hopen).follows hf (hok se hw)
      | @ticket w j service tx ticket hj ha hf hd =>
        have hopen : Open s tx none := ⟨w, .granted hj⟩
        rw [hd]
        exact apply_own ih.db (ih.txs _ _ hopen) (hsound.txs _ _ hopen).follows hf
          (granted_fits (reachable_staged hreach w _ _ _ hj).2 s.db)
    · intro u ops hu
      cases open_source (step_cases hstep) hu with
      | old h => exact ih.txs _ _ h
      | new => exact ih.db
      | @op w se got op u hw ha hn hrun =>
        subst ha
        have hopen : Open s se.tx (some se.ops) := ⟨w, .session (by rw [hw])⟩
        exact run_own (ih.txs _ _ hopen) ((hsound.txs _ _ hopen).view _ (Nat.le_refl _))
          (hok se (by rw [hw]; rfl)) hrun
      | @stored w j service tx cert ticket hj hc => exact stored_own (ih.txs _ _ ⟨w, .asking hj⟩) hc

/-- What an invoice sees of these records. -/
structure Shows (v : ArcaEdi.View) (db : Db) : Prop where
  company : ∀ c, (v (.company c) : Company) = db.row (.company c)
  certificate : ∀ k cert, db.row (.certificate k) = some cert → (v (.certificate k) : Certificate) = cert

/-- Every company selects one of its own certificates, so every invoice gets one of
its own company. It holds as long as no certificate leaves the company that
selects it. -/
theorem selected_certificate_own (h : Reachable (system P) keepsSelections s) :
    (∀ c k, (s.db.row (.company c) : Company).certificateId = some k →
      ∃ cert, s.db.row (.certificate k) = some cert ∧ cert.companyId = c) ∧
    ∀ (v : ArcaEdi.View) (now m k : Nat), Shows v s.db → getCertificate now v m = .ok k →
      (v (.certificate k) : Certificate).companyId = (v (.move m) : Move).companyId := by
  have hown := (reachable_selections h).db
  refine ⟨fun c k hk => hown c k hk, ?_⟩
  intro v now m k hv hget
  unfold getCertificate at hget
  dsimp only at hget
  split at hget
  · exact absurd hget Raise.throw_ne_ok
  · next j hj =>
    simp only [Raise.bind_eq_ok, Raise.pure_eq_ok] at hget
    obtain ⟨-, -, rfl⟩ := hget
    rw [hv.company] at hj
    obtain ⟨cert, hcert, howner⟩ := hown _ j hj
    rw [hv.certificate j cert hcert]
    exact howner

theorem selected_certificate_own_moved :
    ∃ s : Sys (Fin 2), (s.db.row (.company 1) : Company).certificateId = some 1 ∧
      ∃ cert, s.db.row (.certificate 1) = some cert ∧ cert.companyId = 1 := by
  obtain ⟨s, hs, hst⟩ := Office.reaches keepsSelections
    (Office.activated 0 ++ Office.request 1 (.create (Office.form 0) none) ++
      Office.request 1 (.save 1 (Office.form 1) none) ++ Office.request 1 (.choose 1 (some 1)))
    (fun s => (s.db.row (.company 1) : Company).certificateId == some 1) (by decide +kernel)
  exact ⟨s, eq_of_beq hst, (selected_certificate_own hs).1 1 1 (eq_of_beq hst)⟩

/-- The wizard selects its new draft for company 0. The form moves the draft to
company 1, and it becomes active there. -/
theorem selected_certificate_foreign :
    ∃ (s : Sys (Fin 2)) (cert : Certificate), Reachable (system Office.platform) Always s ∧
      (s.db.row (.company 0) : Company).certificateId = some 0 ∧
      s.db.row (.certificate 0) = some cert ∧ cert.companyId = 1 ∧
      cert.checkUsable s.clock = .ok () := by
  obtain ⟨s, hs, hst⟩ := Office.reaches Always
    (Office.request 0 (.wizard (Office.form 0)) ++ Office.request 0 (.save 0 (Office.form 1) none) ++
      Office.request 1 (.generateKeyAndCsr 0 true ⟨7⟩) ++
      Office.request 1 (.processCertificate 0 (some Office.cert)))
    (fun s => (s.db.row (.company 0) : Company).certificateId == some 0 &&
      (Office.committed s 0).any fun cert : Certificate =>
        cert.companyId == 1 && decide (cert.checkUsable s.clock = .ok ())) (by decide +kernel)
  rw [Bool.and_eq_true, beq_iff_eq] at hst
  obtain ⟨cert, hcert, hforeign⟩ := (Option.any_eq_true _ _).mp hst.2
  rw [Bool.and_eq_true, beq_iff_eq, decide_eq_true_eq] at hforeign
  exact ⟨s, cert, hs, hst.1, hcert, hforeign.1, hforeign.2⟩

end ArcaEdi.Registry
