import ArcaEdi.RegistryInvariant

/-!
# Keys, CSRs and certificates of one record

Three things that a record must keep together while actions, copies, saves and
ticket runs interleave: its key for life, the key of the CSR that it shows, and
the certificate of its key.
-/

namespace ArcaEdi.Registry

open Runs Snapshot

variable {W : Type} [DecidableEq W] {P : Platform} {s s' : Sys W} {a : Act W} {t u : DbTx}
  {ops : List Op} {k : Nat}

/-! ## The key -/

/-- `r'` is a later version of record `k`. Only one of the operations in `ops` that
revokes the record may have erased its key. -/
def Later (ops : List Op) (k : Nat) (r r' : Option Certificate) : Prop :=
  ∀ c, r = some c → ∃ c', r' = some c' ∧
    (∀ key, c.privateKey = some key →
      c'.privateKey = some key ∨ (c'.privateKey = none ∧ c'.state = .revoked ∧ .revoke k ∈ ops)) ∧
    (c.state = .revoked → c'.state = .revoked)

theorem later_refl (ops : List Op) (k : Nat) (r : Option Certificate) : Later ops k r r :=
  fun c hc => ⟨c, hc, fun _ hkey => .inl hkey, id⟩

theorem change_later {now fresh : Nat} {v : View} {op : Op} {r r' : Option Certificate}
    (hfresh : k = fresh → r = none) (hproper : ∀ c, r = some c → Proper c)
    (h : RowChange now fresh v op k r r') : Later [op] k r r' := by
  intro c hc
  subst hc
  cases h with
  | same => exact later_refl _ _ _ c rfl
  | created => cases hfresh rfl
  | copied => cases hfresh rfl
  | @saved k form file c0 =>
    refine ⟨_, rfl, ?_⟩
    unfold saved
    split <;> exact ⟨fun _ hkey => .inl hkey, id⟩
  | generated ho hd =>
    refine ⟨_, rfl, fun key hkey => ?_, fun hr => ?_⟩
    · rw [(hproper c rfl).draft hd] at hkey
      cases hkey
    · rw [hd] at hr
      cases hr
  | installed ho ha =>
    obtain ⟨key, hkey, -⟩ := ha.key
    refine ⟨_, rfl, fun _ hkey => .inl hkey, fun hr => ?_⟩
    rw [((hproper c rfl).revoked hr).1] at hkey
    cases hkey
  | revoked ho =>
    subst ho
    exact ⟨_, rfl, fun key hkey => .inr ⟨rfl, rfl, List.mem_singleton_self _⟩, fun _ => rfl⟩
  | expired ho ha =>
    refine ⟨_, rfl, fun _ hkey => .inl hkey, fun hr => ?_⟩
    rw [ha] at hr
    cases hr

theorem later_trans {op : Op} {r r' r'' : Option Certificate} (h : Later ops k r r')
    (h' : Later [op] k r' r'') (hproper : ∀ c, r'' = some c → Proper c) :
    Later (op :: ops) k r r'' := by
  intro c hc
  obtain ⟨c', hc', hkey, hrevoked⟩ := h c hc
  obtain ⟨c'', hc'', hkey', hrevoked'⟩ := h' c' hc'
  refine ⟨c'', hc'', fun key hk => ?_, fun hr => hrevoked' (hrevoked hr)⟩
  rcases hkey key hk with hk' | ⟨-, hr, hmem⟩
  · rcases hkey' key hk' with hk'' | ⟨hnone, hr, hmem⟩
    · exact .inl hk''
    · exact .inr ⟨hnone, hr, List.mem_cons.mpr (.inl (List.mem_singleton.mp hmem))⟩
  · have hr'' := hrevoked' hr
    exact .inr ⟨((hproper c'' hc'').revoked hr'').1, hr'', List.mem_cons_of_mem _ hmem⟩

/-- A session's view of each record is a later version of its snapshot's. -/
def Grown (s : Sys W) : Prop :=
  ∀ t ops, Open s t ops →
    ∀ k, Later (ops.getD []) k (t.snap.row (.certificate k)) (t.view (.certificate k))

theorem reachable_grown {ok : Sys W → Act W → Prop} (h : Reachable (system P) ok s) : Grown s := by
  refine reachable_inv ?_ ?_ h
  · exact fun s hs t ops ht => absurd ht (initial_not_open hs)
  · intro s a s' hreach _ ih hstep u ops hu k
    cases open_source (step_cases hstep) hu with
    | old h => exact ih _ _ h k
    | new => exact later_refl _ _ _
    | @op w se got op u hw ha hn hrun =>
      have hopen : Open s se.tx (some se.ops) := ⟨w, .session (by rw [hw])⟩
      have hview := (reachable_proper hreach).txs _ _ hopen
      have heffect := run_effect hrun
      have hchange : Later [op] k (se.tx.view (.certificate k)) (u.view (.certificate k)) := by
        refine change_later ?_ (hview k) (heffect.row k)
        rintro rfl
        exact ((reachable_sound hreach).txs _ _ hopen).view _ (Nat.le_refl _)
      rw [heffect.snap]
      refine later_trans (ih _ _ hopen k) hchange fun c hc => ?_
      exact change_proper hview (hc ▸ heffect.row k)
    | @stored w j service tx c ticket hj hc =>
      have hopen : Open s tx none := ⟨w, .asking hj⟩
      have hold := ih _ _ hopen k
      by_cases hkj : k = j
      · subst hkj
        rw [write_view_self, write_snap]
        intro c0 hc0
        obtain ⟨c1, hc1, hkey, hrevoked⟩ := hold c0 hc0
        rw [hc, Option.some.injEq] at hc1
        subst hc1
        exact ⟨_, rfl, hkey, hrevoked⟩
      · rw [write_view_ne _ _ (by simpa using hkj)]
        exact hold

theorem step_later {ok : Sys W → Act W → Prop} (h : Reachable (system P) ok s)
    (hstep : step P s a = some s') (k : Nat) :
    ∃ ops, Later ops k (s.db.row (.certificate k)) (s'.db.row (.certificate k)) ∧
      (ops = [] ∨ ∃ w se, a = .commit w ∧ (s.worker w).session = some se ∧ ops = se.ops) := by
  have hcommit : ∀ t ops, Open s t ops → t.fits s.db →
      Later (ops.getD []) k (s.db.row (.certificate k)) ((s.db.apply t).row (.certificate k)) := by
    intro t ops ht hf
    have hfollows := ((reachable_sound h).txs t ops ht).follows
    rcases apply_row_fits hfollows hf (.certificate k) with hsame | ⟨hsnap, hview⟩
    · rw [hsame]
      exact later_refl _ _ _
    · rw [hsnap, hview]
      exact reachable_grown h t ops ht k
  cases step_db (step_cases hstep) with
  | same hd => exact ⟨[], by rw [hd]; exact later_refl _ _ _, .inl rfl⟩
  | @session w se hw ha hf hd =>
    exact ⟨se.ops, by rw [hd]; exact hcommit _ _ ⟨w, .session hw⟩ hf, .inr ⟨w, se, ha, hw, rfl⟩⟩
  | @ticket w j service tx ticket hj ha hf hd =>
    exact ⟨[], by rw [hd]; exact hcommit _ _ ⟨w, .granted hj⟩ hf, .inl rfl⟩

/-- The key of a record, where there is one. -/
def keyOf (r : Option Certificate) : Option PrivateKey := r.bind (·.privateKey)

theorem keyOf_eq_some {r : Option Certificate} {key : PrivateKey} :
    keyOf r = some key ↔ ∃ c, r = some c ∧ c.privateKey = some key := by
  simp [keyOf, Option.bind_eq_some_iff]

theorem keyOf_later {r r' : Option Certificate} {key : PrivateKey} (h : Later ops k r r')
    (hkey : keyOf r = some key) :
    keyOf r' = some key ∨ (keyOf r' = none ∧ .revoke k ∈ ops) := by
  obtain ⟨c, rfl, hk⟩ := keyOf_eq_some.mp hkey
  obtain ⟨c', rfl, hlater, -⟩ := h c rfl
  rcases hlater key hk with hk' | ⟨hnone, -, hmem⟩
  · exact .inl (keyOf_eq_some.mpr ⟨c', rfl, hk'⟩)
  · exact .inr ⟨hnone, hmem⟩

theorem revoked_stays {s' : Sys W} (h : Reachable (system P) Always s)
    (hl : Leads (system P) Always s s')
    {c : Certificate} (hc : s.db.row (.certificate k) = some c) (hr : c.state = .revoked) :
    ∃ c', s'.db.row (.certificate k) = some c' ∧ c'.state = .revoked := by
  refine leads_keep (P := fun s => ∃ c, s.db.row (.certificate k) = some c ∧ c.state = .revoked)
    h ?_ hl ⟨c, hc, hr⟩
  rintro s a s' hs - ⟨c, hc, hr⟩ hstep
  obtain ⟨ops, hlater, -⟩ := step_later hs hstep k
  obtain ⟨c', hc', -, hrevoked⟩ := hlater c hc
  exact ⟨c', hc', hrevoked hr⟩

theorem revoked_unusable {c : Certificate} {now : Nat} (h : c.state = .revoked) :
    c.checkUsable now ≠ .ok () := by
  simp [Certificate.checkUsable, h, throw, throwThe, MonadExceptOf.throw]

/-- No step replaces a key, and only a revocation erases one: on the committed
rows, and on what a session sees. A revoked record stays revoked, with no key and
no ticket, and is never usable again. -/
theorem key_for_life (h : Reachable (system P) Always s) :
    (∀ a s' k key, step P s a = some s' → keyOf (s.db.row (.certificate k)) = some key →
      keyOf (s'.db.row (.certificate k)) = some key ∨
        (keyOf (s'.db.row (.certificate k)) = none ∧
          ∃ w se, a = .commit w ∧ (s.worker w).session = some se ∧ .revoke k ∈ se.ops)) ∧
    (∀ w op s' se se' k key, step P s (.user w op) = some s' → (s.worker w).session = some se →
      (s'.worker w).session = some se' → keyOf (se.tx.view (.certificate k)) = some key →
      keyOf (se'.tx.view (.certificate k)) = some key ∨
        (keyOf (se'.tx.view (.certificate k)) = none ∧ op = .revoke k)) ∧
    (∀ t k c, Leads (system P) Always s t → s.db.row (.certificate k) = some c →
      c.state = .revoked → ∃ c', t.db.row (.certificate k) = some c' ∧ c'.state = .revoked ∧
        c'.privateKey = none ∧ c'.tokenCache = [] ∧ ∀ now, c'.checkUsable now ≠ .ok ()) := by
  refine ⟨?_, ?_, ?_⟩
  · intro a s' k key hstep hkey
    obtain ⟨ops, hlater, hops⟩ := step_later h hstep k
    rcases keyOf_later hlater hkey with hsame | ⟨hnone, hmem⟩
    · exact .inl hsame
    · rcases hops with rfl | ⟨w, se, ha, hse, rfl⟩
      · cases hmem
      · exact .inr ⟨hnone, w, se, ha, hse, hmem⟩
  · intro w op s' se se' k key hstep hse hse' hkey
    simp only [step, Sys.user] at hstep
    split at hstep
    · next se0 got hw =>
      rw [hw, Option.some.injEq] at hse
      subst hse
      split at hstep
      · next t hrun =>
        cases hstep
        rw [setWorker_worker, Function.update_self, Option.some.injEq] at hse'
        subst hse'
        have hopen : Open s se0.tx (some se0.ops) := ⟨w, .session (by rw [hw])⟩
        have hlater : Later [op] k (se0.tx.view (.certificate k)) (t.view (.certificate k)) := by
          refine change_later ?_ ((reachable_proper h).txs _ _ hopen k) ((run_effect hrun).row k)
          rintro rfl
          exact ((reachable_sound h).txs _ _ hopen).view _ (Nat.le_refl _)
        rcases keyOf_later hlater hkey with hsame | ⟨hnone, hmem⟩
        · exact .inl hsame
        · exact .inr ⟨hnone, (List.mem_singleton.mp hmem).symm⟩
      · cases hstep
        rw [setWorker_worker, Function.update_self] at hse'
        cases hse'
    · cases hstep
  · intro t k c hl hc hr
    obtain ⟨c', hc', hr'⟩ := revoked_stays h hl hc hr
    have hproper := (reachable_proper (leads_reachable h hl)).db k c' hc'
    exact ⟨c', hc', hr', (hproper.revoked hr').1, (hproper.revoked hr').2,
      fun now => revoked_unusable hr'⟩

theorem key_for_life_in_flight :
    ∃ s t : Sys (Fin 2), Leads (system Office.platform) Always s t ∧
      (∃ k service tx ticket, (s.worker 1).job = .token k service (.granted tx ticket)) ∧
      ∃ c, t.db.row (.certificate 0) = some c ∧ c.state = .revoked ∧ c.privateKey = none ∧
        c.tokenCache = [] ∧ ∀ now, c.checkUsable now ≠ .ok () := by
  obtain ⟨s, t, hs, ht, hst⟩ := Office.reaches_then Always
    (Office.activated 0 ++
      [.start 1, .ask 1 0 "wsfe", .enter 1 none, .login 1 (Office.granted 43200)] ++
      Office.request 0 (.revoke 0))
    [.keep 1]
    (fun s _ => Office.inHand s 1 && (Office.committed s 0).any fun c => c.state == .revoked)
    (by decide +kernel)
  rw [Bool.and_eq_true] at hst
  obtain ⟨c, hc, hr⟩ := (Option.any_eq_true _ _).mp hst.2
  exact ⟨s, t, ht, Office.inHand_spec hst.1,
    (key_for_life hs).2.2 t 0 c ht hc (eq_of_beq hr)⟩

/-! ## The certificate -/

/-- The certificate file is one for the record's key, with the recorded dates. -/
def holdsCertificate (c : Certificate) (file : Option CertificateFile) : Bool :=
  match c.privateKey, file with
  | some key, some (.pem cert) =>
    cert.publicNumbers == key.publicNumbers && c.certDateStart == some cert.notBefore &&
      c.certDateEnd == some cert.notAfter
  | _, _ => false

theorem holdsCertificate_eq {c : Certificate} {file : Option CertificateFile} :
    holdsCertificate c file = true ↔ ∃ key cert, c.privateKey = some key ∧
      file = some (.pem cert) ∧ cert.publicNumbers = key.publicNumbers ∧
      c.certDateStart = some cert.notBefore ∧ c.certDateEnd = some cert.notAfter := by
  unfold holdsCertificate
  split
  · next key cert hkey => simp [hkey, and_assoc]
  · next hno =>
    simp only [Bool.false_eq_true, false_iff, not_exists]
    rintro key cert ⟨hkey, rfl, -⟩
    exact hno key cert hkey rfl

/-- Every operation of a session meets a condition on what the session sees. -/
def eachOp (p : View → Op → Bool) (s : Sys W) : Act W → Prop
  | .user w op => ∀ se ∈ (s.worker w).session, p se.tx.view op = true
  | _ => True

instance (p : View → Op → Bool) (s : Sys W) (a : Act W) : Decidable (eachOp p s a) :=
  match a with
  | .user w op => inferInstanceAs (Decidable (∀ se ∈ (s.worker w).session, p se.tx.view op = true))
  | .tick _ | .start _ | .commit _ | .rollback _ | .ask _ _ _ | .enter _ _ | .login _ _ | .keep _
  | .leave _ | .abort _ _ | .kill _ => isTrue trivial

/-- A save of an active record's form leaves the certificate that the record has, or
one that differs in neither key nor dates. -/
def savesItsCertificate (v : View) : Op → Bool
  | .save k _ file => (v (.certificate k)).all fun c => c.state != .active || holdsCertificate c file
  | _ => true

/-- Every active record holds its certificate, as long as no save of its form takes
it away. -/
theorem active_holds_certificate (h : Reachable (system P) (eachOp savesItsCertificate) s) (k : Nat)
    (c : Certificate) (hc : s.db.row (.certificate k) = some c) (ha : c.state = .active) :
    ∃ key cert, c.privateKey = some key ∧ c.certificate = some (.pem cert) ∧
      cert.publicNumbers = key.publicNumbers ∧ c.certDateStart = some cert.notBefore ∧
      c.certDateEnd = some cert.notAfter := by
  have hrows : Rows (fun c => c.state = .active → holdsCertificate c c.certificate = true) s := by
    refine reachable_rows ?_ (fun _ _ _ h _ => h) h
    intro s w se op k c hok hse hv hchange
    have hold := hv k
    generalize hr : se.tx.view (.certificate k) = r at hold hchange
    cases hchange with
    | same => exact hold c rfl
    | created | copied | generated | revoked | expired => exact nofun
    | @saved k form file c0 ho =>
      subst ho
      have hsave := hok se hse
      simp only [savesItsCertificate, hr, Option.all_some, Bool.or_eq_true, bne_iff_ne] at hsave
      unfold saved
      split
      · next hd => simp [hd]
      · exact fun ha => hsave.resolve_left (not_not.mpr ha)
    | installed ho hacc =>
      obtain ⟨key, hkey, hmatch⟩ := hacc.key
      exact fun _ => holdsCertificate_eq.mpr ⟨key, _, hkey, rfl, hmatch, rfl, rfl⟩
  exact holdsCertificate_eq.mp (hrows.db k c hc ha)

theorem active_holds_certificate_saved :
    ∃ (s : Sys (Fin 2)) (c : Certificate), s.db.row (.certificate 0) = some c ∧ c.state = .active ∧
      ∃ key cert, c.privateKey = some key ∧ c.certificate = some (.pem cert) ∧
        cert.publicNumbers = key.publicNumbers ∧ c.certDateStart = some cert.notBefore ∧
        c.certDateEnd = some cert.notAfter := by
  obtain ⟨s, hs, hst⟩ := Office.reaches (eachOp savesItsCertificate)
    (Office.activated 0 ++ Office.request 1 (.save 0 (Office.form 0) (some (.pem Office.cert))))
    (fun s => (Office.committed s 0).any fun c => c.state == .active) (by decide +kernel)
  obtain ⟨c, hc, ha⟩ := (Option.any_eq_true _ _).mp hst
  exact ⟨s, c, hc, eq_of_beq ha, active_holds_certificate hs 0 c hc (eq_of_beq ha)⟩

/-- The form of an active record is saved with its certificate field empty. -/
theorem active_without_certificate :
    ∃ (s : Sys (Fin 2)) (c : Certificate), Reachable (system Office.platform) Always s ∧
      s.db.row (.certificate 0) = some c ∧ c.state = .active ∧ c.certificate = none := by
  obtain ⟨s, hs, hst⟩ := Office.reaches Always
    (Office.activated 0 ++ Office.request 1 (.save 0 (Office.form 0) none))
    (fun s => (Office.committed s 0).any fun c => c.state == .active && c.certificate == none)
    (by decide +kernel)
  obtain ⟨c, hc, ha⟩ := (Option.any_eq_true _ _).mp hst
  rw [Bool.and_eq_true, beq_iff_eq, beq_iff_eq] at ha
  exact ⟨s, c, hs, hc, ha.1, ha.2⟩

/-! ## The CSR -/

/-- The record holds the key of the CSR that it shows. -/
def OwnsCsr (c : Certificate) : Prop :=
  ∀ csr, c.csrPem = some csr → c.state ≠ .revoked →
    ∃ key, c.privateKey = some key ∧ key.publicNumbers = csr.publicNumbers

/-- Only records that show no CSR are duplicated. -/
def copiesNoCsr (v : View) : Op → Bool
  | .duplicate k => (v (.certificate k)).all fun c => c.csrPem == none
  | _ => true

/-- Every record that shows a CSR and is not revoked holds the key of that CSR, as
long as no record that shows a CSR is duplicated. -/
theorem csr_with_its_key (h : Reachable (system P) (eachOp copiesNoCsr) s) (k : Nat)
    (c : Certificate) (hc : s.db.row (.certificate k) = some c) : OwnsCsr c := by
  have hrows : Rows (fun c => Proper c ∧ OwnsCsr c) s := by
    refine reachable_rows ?_ (fun c _ _ hc hkey =>
      ⟨⟨hc.1.draft, fun hr => absurd (hc.1.revoked hr).1 hkey⟩, hc.2⟩) h
    intro s w se op k c hok hse hv hchange
    have hold := hv k
    refine ⟨change_proper (fun k c hc => (hv k c hc).1) hchange, ?_⟩
    generalize hr : se.tx.view (.certificate k) = r at hold hchange
    cases hchange with
    | same => exact (hold c rfl).2
    | created => exact nofun
    | @copied j c0 r ho hc0 =>
      subst ho
      have hcopy := hok se hse
      simp only [copiesNoCsr, hc0, Option.all_some, beq_iff_eq] at hcopy
      intro csr hcsr
      change c0.csrPem = some csr at hcsr
      rw [hcopy] at hcsr
      cases hcsr
    | @saved k form file c0 ho =>
      unfold saved
      split <;> exact (hold c0 rfl).2
    | generated ho hd =>
      rintro csr ⟨⟩ -
      exact ⟨_, rfl, rfl⟩
    | @installed k cert c0 ho ha =>
      obtain ⟨hproper, hown⟩ := hold c0 rfl
      obtain ⟨key, hkey, -⟩ := ha.key
      refine fun csr hcsr _ => hown csr hcsr fun hr => ?_
      rw [(hproper.revoked hr).1] at hkey
      cases hkey
    | revoked => exact fun csr _ hne => absurd rfl hne
    | @expired k c0 ho ha =>
      refine fun csr hcsr _ => (hold c0 rfl).2 csr hcsr ?_
      rw [ha]
      exact nofun
  exact (hrows.db k c hc).2

theorem csr_with_its_key_copied :
    ∃ (s : Sys (Fin 2)) (c : Certificate), s.db.row (.certificate 1) = some c ∧
      c.csrPem.isSome ∧ OwnsCsr c := by
  obtain ⟨s, hs, hst⟩ := Office.reaches (eachOp copiesNoCsr)
    (Office.request 0 (.wizard (Office.form 0)) ++ Office.request 1 (.duplicate 0) ++
      Office.request 1 (.generateKeyAndCsr 1 true ⟨8⟩))
    (fun s => (Office.committed s 1).any fun c => c.csrPem.isSome) (by decide +kernel)
  obtain ⟨c, hc, hcsr⟩ := (Option.any_eq_true _ _).mp hst
  exact ⟨s, c, hc, hcsr, csr_with_its_key hs 1 c hc⟩

/-- The copy of a record with a CSR is a draft that shows the CSR and has no key. -/
theorem csr_without_its_key :
    ∃ (s : Sys (Fin 2)) (c : Certificate), Reachable (system Office.platform) Always s ∧
      s.db.row (.certificate 1) = some c ∧ c.state = .draft ∧ c.csrPem.isSome ∧
      c.privateKey = none := by
  obtain ⟨s, hs, hst⟩ := Office.reaches Always
    (Office.request 0 (.wizard (Office.form 0)) ++
      Office.request 0 (.generateKeyAndCsr 0 true ⟨7⟩) ++ Office.request 1 (.duplicate 0))
    (fun s => (Office.committed s 1).any fun c =>
      c.state == .draft && (c.csrPem.isSome && c.privateKey == none)) (by decide +kernel)
  obtain ⟨c, hc, hcopy⟩ := (Option.any_eq_true _ _).mp hst
  rw [Bool.and_eq_true, Bool.and_eq_true, beq_iff_eq, beq_iff_eq] at hcopy
  exact ⟨s, c, hs, hc, hcopy.1, hcopy.2.1, hcopy.2.2⟩

end ArcaEdi.Registry
