import ArcaEdi.Registry

/-!
# What an operation and a step can do to the registry

One rule for each kind of write and one for each kind of step. Every later proof
starts from these rules.
-/

namespace ArcaEdi.Registry

open Snapshot

/-! ## Writes -/

/-- What an operation does to one certificate row. -/
inductive RowChange (now fresh : Nat) (v : View) (op : Op) :
    Nat → Option Certificate → Option Certificate → Prop
  | same {k : Nat} {r : Option Certificate} : RowChange now fresh v op k r r
  | created {form : CertificateForm} {file : Option CertificateFile} {r : Option Certificate}
      (ho : op = .create form file ∨ (op = .wizard form ∧ file = none)) :
      RowChange now fresh v op fresh r (some (form.record file))
  | copied {j : Nat} {c : Certificate} {r : Option Certificate} (ho : op = .duplicate j)
      (hc : v (.certificate j) = some c) :
      RowChange now fresh v op fresh r (some (copied c))
  | saved {k : Nat} {form : CertificateForm} {file : Option CertificateFile} {c : Certificate}
      (ho : op = .save k form file) :
      RowChange now fresh v op k (some c) (some (saved c form file))
  | generated {k : Nat} {canWrite : Bool} {key : PrivateKey} {c : Certificate}
      (ho : op = .generateKeyAndCsr k canWrite key) (hd : c.state = .draft) :
      RowChange now fresh v op k (some c) (some (c.generated key))
  | installed {k : Nat} {cert : X509} {c : Certificate} (ho : op = .processCertificate k (some cert))
      (ha : c.Accepts now cert) :
      RowChange now fresh v op k (some c) (some (c.installed cert))
  | revoked {k : Nat} {c : Certificate} (ho : op = .revoke k) :
      RowChange now fresh v op k (some c) (some c.actionRevoke)
  | expired {k : Nat} {c : Certificate} (ho : op = .checkExpiration) (ha : c.state = .active) :
      RowChange now fresh v op k (some c) (some { c with state := .expired, tokenCache := [] })

/-- The company selects a record that exists and belongs to it, or none. -/
def SelectsOwn (v : View) (c : Nat) : Prop :=
  ∀ k, (v (.company c) : Company).certificateId = some k →
    ∃ cert, v (.certificate k) = some cert ∧ cert.companyId = c

/-- What an operation does to one company row. -/
inductive SelectionChange (v' : View) (op : Op) : Nat → Company → Company → Prop
  | same {c : Nat} {company : Company} : SelectionChange v' op c company company
  | selected {c : Nat} {company : Company} {selection : Option Nat}
      (ho : op = .choose c selection ∨ ∃ form, op = .wizard form ∧ c = form.companyId)
      (hs : SelectsOwn v' c) :
      SelectionChange v' op c company { company with certificateId := selection }

/-- What an operation does to its transaction. -/
structure Effect (now fresh : Nat) (op : Op) (t t' : DbTx) : Prop where
  snap : t'.snap = t.snap
  row : ∀ k, RowChange now fresh t.view op k (t.view (.certificate k)) (t'.view (.certificate k))
  company : ∀ c, SelectionChange t'.view op c (t.view (.company c)) (t'.view (.company c))
  dirty : ∀ k ∈ t.dirty, k ∈ t'.dirty
  ended : ∀ k, op.ends k = true → .certificate k ∈ t'.dirty

section Operations

variable {now fresh k c : Nat} {t t' : DbTx} {op : Op} {cert : Certificate}

theorem browse_eq_ok {v : View} : browse v k = .ok cert ↔ v (.certificate k) = some cert := by
  unfold browse
  split <;> simp_all

theorem readUnder_eq_ok {v : View} {service : String} {signing : Option String} {got : Option Ticket} :
    readUnder now v k service signing = .ok got ↔
      ∃ cert, v (.certificate k) = some cert ∧ underLock now cert service signing = .ok got := by
  rw [readUnder, Raise.bind_eq_ok]
  simp only [browse_eq_ok]

theorem effect_write {r : Certificate}
    (hr : RowChange now fresh t.view op k (t.view (.certificate k)) (some r))
    (he : ∀ j, op.ends j = true → j = k) : Effect now fresh op t (t.write (.certificate k) (some r)) := by
  refine ⟨rfl, ?_, ?_, fun j hj => List.mem_cons_of_mem _ hj, ?_⟩
  · intro j
    by_cases hjk : j = k
    · subst hjk
      rwa [write_view_self]
    · rw [write_view_ne _ _ (by simpa using hjk)]
      exact .same
  · intro j
    rw [write_view_ne _ _ (by simp)]
    exact .same
  · intro j hj
    rw [he j hj]
    exact List.mem_cons_self

theorem effect_select {selection : Option Nat}
    (ho : op = .choose c selection)
    (hs : SelectsOwn (t.write (.company c)
      { (t.view (.company c) : Company) with certificateId := selection }).view c) :
    Effect now fresh op t
      (t.write (.company c) { (t.view (.company c) : Company) with certificateId := selection }) := by
  refine ⟨rfl, ?_, ?_, fun j hj => List.mem_cons_of_mem _ hj, ?_⟩
  · intro j
    rw [write_view_ne _ _ (by simp)]
    exact .same
  · intro j
    by_cases hj : j = c
    · subst hj
      rw [write_view_self]
      exact .selected (.inl ho) hs
    · rw [write_view_ne _ _ (by simpa using hj)]
      exact .same
  · intro j hj
    subst ho
    cases hj

theorem onCertificate_eq_ok {f : Certificate → Except Exn Certificate} :
    onCertificate t k f = .ok t' ↔ ∃ c c', t.view (.certificate k) = some c ∧ f c = .ok c' ∧
      t' = t.write (.certificate k) (some c') := by
  unfold onCertificate
  simp only [Raise.bind_eq_ok, Raise.pure_eq_ok, browse_eq_ok]
  constructor
  · rintro ⟨c, hc, c', hc', rfl⟩
    exact ⟨c, c', hc, hc', rfl⟩
  · rintro ⟨c, c', hc, hc', rfl⟩
    exact ⟨c, hc, c', hc', rfl⟩

theorem checkCertificateCompany_own {v : View} (h : checkCertificateCompany v c = .ok ()) :
    SelectsOwn v c := by
  intro k hk
  simp only [checkCertificateCompany, hk, Raise.bind_eq_ok, browse_eq_ok] at h
  obtain ⟨cert, hcert, h⟩ := h
  refine ⟨cert, hcert, ?_⟩
  split at h
  · exact absurd h Raise.throw_ne_ok
  · next hne => exact not_not.mp hne

theorem chooseCertificate_eq {selection : Option Nat}
    (h : chooseCertificate t c selection = .ok t') :
    t' = t.write (.company c) { (t.view (.company c) : Company) with certificateId := selection } ∧
      SelectsOwn t'.view c := by
  unfold chooseCertificate at h
  simp only [Raise.bind_eq_ok, Raise.pure_eq_ok] at h
  obtain ⟨⟨⟩, hcheck, rfl⟩ := h
  exact ⟨rfl, checkCertificateCompany_own hcheck⟩

theorem createCertificate_eq {form : CertificateForm} {file : Option CertificateFile}
    (h : createCertificate t fresh form file = .ok t') :
    t' = t.write (.certificate fresh) (some (form.record file)) := by
  unfold createCertificate at h
  simp only [Raise.bind_eq_ok, Raise.pure_eq_ok] at h
  obtain ⟨-, -, rfl⟩ := h
  rfl

theorem actionCreate_eq {form : CertificateForm} (h : actionCreate t fresh form = .ok t') :
    t' = (t.write (.certificate fresh) (some (form.record none))).write (.company form.companyId)
        { (t.view (.company form.companyId) : Company) with certificateId := some fresh } ∧
      SelectsOwn t'.view form.companyId := by
  unfold actionCreate at h
  simp only [Raise.bind_eq_ok, Raise.check_eq_ok] at h
  obtain ⟨-, -, -, -, -, -, created, hcreated, hchosen⟩ := h
  obtain rfl := createCertificate_eq hcreated
  obtain ⟨rfl, hown⟩ := chooseCertificate_eq hchosen
  rw [write_view_ne _ _ (by simp)] at hown ⊢
  exact ⟨rfl, hown⟩

theorem effect_wizard {form : CertificateForm} (h : actionCreate t fresh form = .ok t') :
    Effect now fresh (.wizard form) t t' := by
  obtain ⟨rfl, hown⟩ := actionCreate_eq h
  refine ⟨rfl, ?_, ?_, fun k hk => by simp [hk], fun k hk => by cases hk⟩
  · intro k
    rw [write_view_ne _ _ (by simp)]
    by_cases hk : k = fresh
    · subst hk
      rw [write_view_self]
      exact .created (.inr ⟨rfl, rfl⟩)
    · rw [write_view_ne _ _ (by simpa using hk)]
      exact .same
  · intro c
    by_cases hc : c = form.companyId
    · subst hc
      rw [write_view_self]
      exact .selected (.inr ⟨form, rfl, rfl⟩) hown
    · rw [write_view_ne _ _ (by simpa using hc), write_view_ne _ _ (by simp)]
      exact .same

theorem cronCheckExpiration_change (c : Certificate) :
    RowChange now fresh t.view .checkExpiration k (some c) (some (c.cronCheckExpiration now)) := by
  unfold Certificate.cronCheckExpiration
  split
  · next h => exact .expired rfl h.1
  · exact .same

theorem cron_change_trans {v v' : View} {r r' r'' : Option Certificate}
    (h : RowChange now fresh v .checkExpiration k r r')
    (h' : RowChange now fresh v' .checkExpiration k r' r'') :
    RowChange now fresh v .checkExpiration k r r'' := by
  cases h with
  | same =>
    cases h' with
    | same => exact .same
    | expired ho ha => exact .expired ho ha
    | created ho => rcases ho with ho | ⟨ho, -⟩ <;> cases ho
    | copied ho hc | saved ho | generated ho hd | installed ho ha | revoked ho => cases ho
  | expired ho ha =>
    cases h' with
    | same => exact .expired ho ha
    | expired _ ha' => cases ha'
    | created ho => rcases ho with ho | ⟨ho, -⟩ <;> cases ho
    | copied ho hc | saved ho | generated ho hd | installed ho ha | revoked ho => cases ho
  | created ho => rcases ho with ho | ⟨ho, -⟩ <;> cases ho
  | copied ho hc | saved ho | generated ho hd | installed ho ha | revoked ho => cases ho

theorem cron_company {v : View} {company company' : Company}
    (h : SelectionChange v .checkExpiration c company company') : company' = company := by
  cases h with
  | same => rfl
  | selected ho hs => rcases ho with ho | ⟨form, ho, -⟩ <;> cases ho

theorem effect_cron_trans {u : DbTx} (h : Effect now fresh .checkExpiration t u)
    (h' : Effect now fresh .checkExpiration u t') : Effect now fresh .checkExpiration t t' := by
  refine ⟨h'.snap.trans h.snap, fun k => cron_change_trans (h.row k) (h'.row k), ?_,
    fun k hk => h'.dirty k (h.dirty k hk), fun k hk => by cases hk⟩
  intro c
  rw [cron_company (h'.company c), cron_company (h.company c)]
  exact .same

theorem effect_cron {ks : List Nat}
    (h : ks.foldlM (fun t k => onCertificate t k fun c => return c.cronCheckExpiration now) t =
      .ok t') : Effect now fresh .checkExpiration t t' := by
  induction ks generalizing t with
  | nil =>
    rw [List.foldlM_nil, Raise.pure_eq_ok] at h
    subst h
    exact ⟨rfl, fun _ => .same, fun _ => .same, fun _ hk => hk, fun _ hk => by cases hk⟩
  | cons k ks ih =>
    rw [List.foldlM_cons, Raise.bind_eq_ok] at h
    obtain ⟨u, hu, hrest⟩ := h
    obtain ⟨c, c', hc, hc', rfl⟩ := onCertificate_eq_ok.mp hu
    rw [Raise.pure_eq_ok] at hc'
    subst hc'
    refine effect_cron_trans (effect_write ?_ (fun j hj => by cases hj)) (ih hrest)
    rw [hc]
    exact cronCheckExpiration_change c

theorem run_effect (h : op.run now fresh t = .ok t') : Effect now fresh op t t' := by
  have hother : ∀ {j i : Nat}, (j == i) = true → i = j := fun hj => (beq_iff_eq.mp hj).symm
  cases op with
  | create form file =>
    obtain rfl := createCertificate_eq h
    exact effect_write (.created (.inl rfl)) (fun j hj => by cases hj)
  | wizard form => exact effect_wizard h
  | choose c selection =>
    obtain ⟨rfl, hown⟩ := chooseCertificate_eq h
    exact effect_select rfl hown
  | save k form file =>
    simp only [Op.run, save, Raise.bind_eq_ok, browse_eq_ok] at h
    obtain ⟨c, hc, h⟩ := h
    have ht : t' = t.write (.certificate k) (some (saved c form file)) := by
      split at h
      · simp only [Raise.bind_eq_ok, Raise.pure_eq_ok] at h
        obtain ⟨-, -, rfl⟩ := h
        rfl
      · exact (Raise.pure_eq_ok.mp h).symm
    subst ht
    refine effect_write ?_ (fun j hj => by cases hj)
    rw [hc]
    exact .saved rfl
  | duplicate k =>
    simp only [Op.run, duplicate, Raise.bind_eq_ok, Raise.pure_eq_ok, browse_eq_ok] at h
    obtain ⟨c, hc, -, -, rfl⟩ := h
    exact effect_write (.copied rfl hc) (fun j hj => by cases hj)
  | generateKeyAndCsr k canWrite key =>
    obtain ⟨c, c', hc, hc', rfl⟩ := onCertificate_eq_ok.mp h
    obtain ⟨-, hd, rfl⟩ := Certificate.generate_eq_ok.mp hc'
    refine effect_write ?_ (fun j hj => by cases hj)
    rw [hc]
    exact .generated rfl hd
  | processCertificate k file =>
    obtain ⟨c, c', hc, hc', rfl⟩ := onCertificate_eq_ok.mp h
    obtain ⟨cert, rfl, ha, rfl⟩ := Certificate.process_eq_ok.mp hc'
    refine effect_write ?_ (fun j hj => hother hj)
    rw [hc]
    exact .installed rfl ha
  | revoke k =>
    obtain ⟨c, c', hc, hc', rfl⟩ := onCertificate_eq_ok.mp h
    rw [Raise.pure_eq_ok] at hc'
    subst hc'
    refine effect_write ?_ (fun j hj => hother hj)
    rw [hc]
    exact .revoked rfl
  | checkExpiration => exact effect_cron h

end Operations

/-! ## Steps -/

section Steps

variable {W : Type} [DecidableEq W] {P : Platform} {s s' : Sys W} {a : Act W}

@[simp] theorem setWorker_worker (s : Sys W) (w : W) (v : Worker) :
    (s.setWorker w v).worker = Function.update s.worker w v := rfl
@[simp] theorem finish_worker (s : Sys W) (w : W) (r : Except Exn Ticket) :
    (s.finish w r).worker =
      Function.update s.worker w ⟨sessionAfter (s.worker w).session r, .idle, some r⟩ := rfl
@[simp] theorem kill_worker (s : Sys W) (w : W) :
    (s.kill w).worker = Function.update s.worker w {} := rfl

omit [DecidableEq W] in
theorem worker_of_job {s : Sys W} {w : W} {job : Job} (hj : (s.worker w).job = job) :
    ∃ session got, s.worker w = ⟨session, job, got⟩ := ⟨_, _, by rw [← hj]⟩

inductive Step (P : Platform) (s : Sys W) : Act W → Sys W → Prop
  | tick {seconds : Nat} : Step P s (.tick seconds) { s with clock := s.clock + seconds }
  | start {w : W} {got : Option (Except Exn Ticket)} (hw : s.worker w = ⟨none, .idle, got⟩) :
      Step P s (.start w) (s.setWorker w ⟨some ⟨Tx.start s.db, []⟩, .idle, got⟩)
  | user {w : W} {se : Session} {got : Option (Except Exn Ticket)} {op : Op} {t : DbTx}
      (hw : s.worker w = ⟨some se, .idle, got⟩) (h : op.run s.clock s.nextId se.tx = .ok t) :
      Step P s (.user w op)
        { s.setWorker w ⟨some ⟨t, op :: se.ops⟩, .idle, got⟩ with nextId := s.nextId + op.draws }
  | raised {w : W} {se : Session} {got : Option (Except Exn Ticket)} {op : Op}
      (hw : s.worker w = ⟨some se, .idle, got⟩) :
      Step P s (.user w op)
        { s.setWorker w ⟨none, .idle, got⟩ with nextId := s.nextId + op.draws }
  | commit {w : W} {se : Session} {got : Option (Except Exn Ticket)} {db : Db}
      (hw : s.worker w = ⟨some se, .idle, got⟩) (hc : se.tx.commit s.db = some db) :
      Step P s (.commit w)
        { s.setWorker w ⟨none, .idle, got⟩ with
          db := db
          turnover := fun k =>
            if se.ops.any (Op.ends k) then db.ver (.certificate k) else s.turnover k }
  | drop {a : Act W} {w : W} {se : Session} {got : Option (Except Exn Ticket)}
      (hw : s.worker w = ⟨some se, .idle, got⟩) :
      Step P s a (s.setWorker w ⟨none, .idle, got⟩)
  | lock {w : W} {se : Session} {got : Option (Except Exn Ticket)} {k : Nat} {service : String}
      (hw : s.worker w = ⟨some se, .idle, got⟩)
      (hr : readBefore s.clock se.tx.view k service = .ok none)
      (hl : s.locks (P.tokenLockKey k service) = none) :
      Step P s (.ask w k service)
        { s.setWorker w ⟨some se, .token k service .locked, got⟩ with
          locks := Function.update s.locks (P.tokenLockKey k service) (some w) }
  | enter {w : W} {session : Option Session} {got : Option (Except Exn Ticket)} {k : Nat}
      {service : String} {signing : Option String}
      (hw : s.worker w = ⟨session, .token k service .locked, got⟩)
      (hr : readUnder s.clock s.db.row k service signing = .ok none) :
      Step P s (.enter w signing)
        (s.setWorker w ⟨session, .token k service (.asking (Tx.start s.db)), got⟩)
  | login {w : W} {session : Option Session} {got : Option (Except Exn Ticket)} {k : Nat}
      {service : String} {tx : DbTx} {reply : LoginReply} {c : Certificate} {ticket : Ticket}
      (hw : s.worker w = ⟨session, .token k service (.asking tx), got⟩)
      (hc : tx.view (.certificate k) = some c) (hr : loginCms s.clock reply = .ok ticket) :
      Step P s (.login w reply)
        (s.setWorker w ⟨session, .token k service (.granted
          (tx.write (.certificate k) (some (c.storeToken service ticket))) ticket), got⟩)
  | keep {w : W} {session : Option Session} {got : Option (Except Exn Ticket)} {k : Nat}
      {service : String} {tx : DbTx} {ticket : Ticket} {db : Db}
      (hw : s.worker w = ⟨session, .token k service (.granted tx ticket), got⟩)
      (hc : tx.commit s.db = some db) :
      Step P s (.keep w)
        { s.setWorker w ⟨session, .token k service (.kept ticket), got⟩ with db := db }
  | refused {w : W} {session : Option Session} {got : Option (Except Exn Ticket)} {k : Nat}
      {service : String} {tx : DbTx} {ticket : Ticket} {outcome : Except Exn Ticket}
      (hw : s.worker w = ⟨session, .token k service (.granted tx ticket), got⟩)
      (hc : tx.commit s.db = none) :
      Step P s (.keep w) (s.finish w outcome)
  /-- The run ends with no ticket in hand. -/
  | finish {a : Act W} {w : W} {outcome : Except Exn Ticket}
      (hg : ∀ k service tx ticket, (s.worker w).job ≠ .token k service (.granted tx ticket)) :
      Step P s a (s.finish w outcome)
  | abort {w : W} {text : String} : Step P s (.abort w text) (s.finish w (.error (.library text)))
  | kill {w : W} : Step P s (.kill w) (s.kill w)

theorem authenticate_eq_ok {now k : Nat} {service : String} {tx tx' : DbTx} {reply : LoginReply}
    {ticket : Ticket} (h : authenticate now tx k service reply = .ok (tx', ticket)) :
    loginCms now reply = .ok ticket ∧ ∃ c, tx.view (.certificate k) = some c ∧
      tx' = tx.write (.certificate k) (some (c.storeToken service ticket)) := by
  unfold authenticate at h
  simp only [Raise.bind_eq_ok, Raise.pure_eq_ok, onCertificate_eq_ok, Prod.mk.injEq] at h
  obtain ⟨ticket', hlogin, stored, ⟨c, c', hc, rfl, rfl⟩, rfl, rfl⟩ := h
  exact ⟨hlogin, c, hc, rfl⟩

theorem step_cases (h : step P s a = some s') : Step P s a s' := by
  cases a with
  | tick seconds =>
    cases h
    exact .tick
  | start w =>
    simp only [step, Sys.start] at h
    split at h <;> cases h
    exact .start ‹_›
  | user w op =>
    simp only [step, Sys.user] at h
    split at h
    · split at h <;> cases h
      · exact .user ‹_› ‹_›
      · exact .raised ‹_›
    · cases h
  | commit w =>
    simp only [step, Sys.commit] at h
    split at h
    · split at h <;> cases h
      · exact .commit ‹_› ‹_›
      · exact .drop ‹_›
    · cases h
  | rollback w =>
    simp only [step, Sys.rollback] at h
    split at h <;> cases h
    exact .drop ‹_›
  | ask w k service =>
    simp only [step, Sys.ask] at h
    split at h
    · next se got hw =>
      have hidle : ∀ k service tx ticket,
          (s.worker w).job ≠ .token k service (.granted tx ticket) := by simp [hw]
      split at h
      · cases h
        exact .finish hidle
      · cases h
        exact .finish hidle
      · split at h <;> cases h
        · exact .lock hw ‹_› ‹_›
        · exact .finish hidle
    · cases h
  | enter w signing =>
    simp only [step, Sys.enter] at h
    split at h
    · next session k service got hw =>
      have hlocked : ∀ k service tx ticket,
          (s.worker w).job ≠ .token k service (.granted tx ticket) := by simp [hw]
      split at h <;> cases h
      · exact .finish hlocked
      · exact .finish hlocked
      · exact .enter hw ‹_›
    · cases h
  | login w reply =>
    simp only [step, Sys.login] at h
    split at h
    · next session k service tx got hw =>
      split at h <;> cases h
      · next hr =>
        obtain ⟨hlogin, c, hc, rfl⟩ := authenticate_eq_ok hr
        exact .login hw hc hlogin
      · exact .finish (by simp [hw])
    · cases h
  | keep w =>
    simp only [step, Sys.keep] at h
    split at h
    · split at h <;> cases h
      · exact .keep ‹_› ‹_›
      · exact .refused ‹_› ‹_›
    · cases h
  | leave w =>
    simp only [step, Sys.leave] at h
    split at h <;> cases h
    next hw => exact .finish (by simp [hw])
  | abort w text =>
    simp only [step, Sys.abort] at h
    split at h <;> cases h
    exact .abort
  | kill w =>
    cases h
    exact .kill

end Steps

end ArcaEdi.Registry
