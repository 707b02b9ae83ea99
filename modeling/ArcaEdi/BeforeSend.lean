import Mathlib.Data.Fintype.Basic
import ArcaEdi.Log
import ArcaEdi.Wsaa

/-!
# Before the request leaves

`fe_cae_solicitar` up to the point where the envelope is sent, with each call
that may raise, and what its failures leave of an attempt that is already
committed as sent.
-/

namespace ArcaEdi

open Snapshot Runs Raise

/-! ## The calls before the envelope -/

/-- What one call of `fe_cae_solicitar` meets before its envelope leaves. -/
structure SendRun where
  /-- What zeep raises while it loads the service description. -/
  wsdl : Option String
  token : TokenRun
  /-- The service description has FECAESolicitar. -/
  hasOperation : Bool
  /-- What the SOAP library raises before the envelope leaves. -/
  building : Option TransportException
  deriving DecidableEq, Repr

/-- `_get_client` fails where the service description cannot be loaded. -/
def getClient : Option String → Except Exn Unit
  | some text => raiseArca .aborted s!"Could not load the ARCA service description: {text}"
  | none => return ()

/-- `_get_auth`: a ticket first, and the issuer's CUIT as a number. -/
def getAuth (now : Nat) (c : Certificate) (issuerCuit : String) (x : TokenRun) :
    Except Exn (Ticket × Int) := do
  let credentials ← getOrRefreshToken now c "wsfe" x
  match PyText.int? issuerCuit with
  | some cuit => return (credentials, cuit)
  | none => throw .valueError

/-- `_call`, as far as it comes without an answer. -/
def getOperation (x : SendRun) : Except Exn Unit :=
  if !x.hasOperation then throw (.library "Service has no operation 'FECAESolicitar'")
  else
    match x.building with
    | some exc => call "FECAESolicitar" (.exception exc)
    | none => return ()

/-- `fe_cae_solicitar`, up to the envelope. -/
def beforeEnvelope (now : Nat) (c : Certificate) (issuerCuit : String) (x : SendRun) :
    Except Exn (Ticket × Int) := do
  getClient x.wsdl
  let auth ← getAuth now c issuerCuit x.token
  getOperation x
  return auth

/-! ## Which failures are ARCA's -/

/-- An ArcaAborted or an ArcaBusinessError. -/
def Closing : Exn → Prop
  | .arca e => e.kind = .aborted ∨ e.kind = .businessError
  | _ => False

/-- `_sign_tra` has what it needs, and cryptography signs. -/
def Certificate.canSign (c : Certificate) (signing : Option String) : Bool :=
  c.privateKey.isSome && (c.certificate matches some (.pem _)) && signing.isNone

/-- ARCA answers with a ticket. -/
def LoginReply.grants : LoginReply → Bool
  | .response (.document (some token) (some sign) _) => token != "" && sign != ""
  | _ => false

/-- The lock is free, and no ticket is found under it. -/
def TokenRun.logsIn (x : TokenRun) (now : Nat) : Prop :=
  x.lockFree = true ∧ readCachedToken now x.scopedCertificate "wsfe" = none

/-- The certificate is usable, it can sign where a login is needed, and
PostgreSQL stores the ticket that ARCA grants. -/
def TokenCloses (now : Nat) (c : Certificate) (x : TokenRun) : Prop :=
  c.checkUsable now = .ok () ∧
    (readCachedToken now c "wsfe" = none → x.logsIn now →
      x.scopedCertificate.canSign x.signing = true ∧
        (x.reply.grants = true → x.refused = none))

/-- A ticket comes from one of the two looks at the cache, or from ARCA. -/
def HasTicket (now : Nat) (c : Certificate) (x : TokenRun) : Prop :=
  readCachedToken now c "wsfe" ≠ none ∨ x.lockFree = true ∧
    (readCachedToken now x.scopedCertificate "wsfe" ≠ none ∨ x.reply.grants = true)

/-- The service description fails to load, or the ticket and, once there is one,
the CUIT and the operation raise nothing else than an ArcaError that closes. -/
def SendCloses (now : Nat) (c : Certificate) (issuerCuit : String) (x : SendRun) : Prop :=
  x.wsdl ≠ none ∨ TokenCloses now c x.token ∧
    (HasTicket now c x.token → PyText.int? issuerCuit ≠ none ∧ x.hasOperation = true ∧
      x.building.all (classifyTransportException · == .aborted) = true)

instance (now : Nat) (x : TokenRun) : Decidable (x.logsIn now) :=
  inferInstanceAs (Decidable (_ ∧ _))

instance (now : Nat) (c : Certificate) (x : TokenRun) : Decidable (TokenCloses now c x) :=
  inferInstanceAs (Decidable (_ ∧ (_ → _ → _ ∧ (_ → _))))

instance (now : Nat) (c : Certificate) (x : TokenRun) : Decidable (HasTicket now c x) :=
  inferInstanceAs (Decidable (_ ∨ _ ∧ (_ ∨ _)))

instance (now : Nat) (c : Certificate) (issuerCuit : String) (x : SendRun) :
    Decidable (SendCloses now c issuerCuit x) :=
  inferInstanceAs (Decidable (_ ∨ _ ∧ (_ → _ ∧ _ ∧ _)))

/-! ## Exactly these -/

section Exact

variable {now : Nat} {c : Certificate} {issuerCuit : String} {reply : LoginReply}

theorem onlyRaises_loginCms : OnlyRaises Closing (loginCms now reply) := by
  cases reply with
  | fault message =>
    rw [loginCms]
    split <;> exact onlyRaises_error.mpr (.inr rfl)
  | exception text => exact onlyRaises_error.mpr (.inl rfl)
  | response r =>
    rw [loginCms]
    unfold parseLoginResponse
    split
    · exact onlyRaises_error.mpr (.inr rfl)
    · split
      · split
        · exact onlyRaises_error.mpr (.inr rfl)
        · exact onlyRaises_ok
      · exact onlyRaises_error.mpr (.inr rfl)

theorem loginCms_ok :
    (∃ ticket, loginCms now reply = .ok ticket) ↔ reply.grants = true := by
  cases reply with
  | fault message =>
    rw [loginCms]
    split <;> simp [raiseArca, LoginReply.grants]
  | exception text => simp [loginCms, raiseArca, LoginReply.grants]
  | response r =>
    cases r with
    | unparsable => simp [loginCms, parseLoginResponse, raiseArca, LoginReply.grants]
    | document token sign expirationTime =>
      cases token <;> cases sign
      case some.some token sign =>
        by_cases hempty : token = "" ∨ sign = ""
        · rcases hempty with rfl | rfl <;>
            simp [loginCms, parseLoginResponse, raiseArca, LoginReply.grants]
        · simp [loginCms, parseLoginResponse, LoginReply.grants, not_or.mp hempty]
      all_goals simp [loginCms, parseLoginResponse, raiseArca, LoginReply.grants]

theorem onlyRaises_checkUsable : OnlyRaises Closing (c.checkUsable now) ↔ c.checkUsable now = .ok () := by
  unfold Certificate.checkUsable
  repeat' split
  all_goals simp [Closing, throw, throwThe, MonadExceptOf.throw, pure, Except.pure]

theorem signTra_cases (c : Certificate) (signing : Option String) :
    c.canSign signing = true ∧ c.signTra signing = .ok () ∨
      c.canSign signing = false ∧ ∃ e, c.signTra signing = .error e ∧ ¬ Closing e := by
  unfold Certificate.canSign Certificate.signTra Certificate.loadPrivateKey
    Certificate.getCertificatePem
  cases c.privateKey with
  | none => exact .inr ⟨rfl, _, rfl, id⟩
  | some key =>
    match c.certificate, signing with
    | none, _ => exact .inr ⟨rfl, _, rfl, id⟩
    | some .other, _ => exact .inr ⟨rfl, _, rfl, id⟩
    | some (.pem _), some text => exact .inr ⟨rfl, _, rfl, id⟩
    | some (.pem _), none => exact .inl ⟨rfl, rfl⟩

theorem getOrRefreshToken_usable {x : TokenRun} (hu : c.checkUsable now = .ok ())
    (hnone : readCachedToken now c "wsfe" = none) (hlogin : x.logsIn now) :
    getOrRefreshToken now c "wsfe" x = (do
      x.scopedCertificate.signTra x.signing
      let ticket ← loginCms now x.reply
      match x.refused with
      | some text => throw (.library text)
      | none => return ticket) := by
  obtain ⟨hfree, hscoped⟩ := hlogin
  simp only [getOrRefreshToken, beforeLock, underLock, hu, hnone, hfree, hscoped]
  cases x.scopedCertificate.signTra x.signing <;> rfl

theorem getOrRefreshToken_found {x : TokenRun} (hu : c.checkUsable now = .ok ())
    (hlogin : readCachedToken now c "wsfe" = none → ¬ x.logsIn now) :
    HasTicket now c x ∧ (∃ ticket, getOrRefreshToken now c "wsfe" x = .ok ticket) ∨
      ¬ HasTicket now c x ∧ getOrRefreshToken now c "wsfe" x = tokenBusy := by
  have hbefore : beforeLock now c "wsfe" = .ok (readCachedToken now c "wsfe") := by
    rw [beforeLock, hu]
    rfl
  unfold HasTicket getOrRefreshToken
  rw [hbefore]
  cases hread : readCachedToken now c "wsfe" with
  | some ticket => exact .inl ⟨.inl nofun, ticket, rfl⟩
  | none =>
    cases hfree : x.lockFree with
    | false => exact .inr ⟨by simp, rfl⟩
    | true =>
      cases hscoped : readCachedToken now x.scopedCertificate "wsfe" with
      | none => exact absurd ⟨hfree, hscoped⟩ (hlogin hread)
      | some ticket => exact .inl ⟨.inr ⟨rfl, .inl nofun⟩, ticket, by simp [underLock, hscoped]; rfl⟩

theorem onlyRaises_getOrRefreshToken {x : TokenRun} :
    OnlyRaises Closing (getOrRefreshToken now c "wsfe" x) ↔ TokenCloses now c x := by
  by_cases hu : c.checkUsable now = .ok ()
  · by_cases hlogin : readCachedToken now c "wsfe" = none ∧ x.logsIn now
    · obtain ⟨hnone, hlogin⟩ := hlogin
      rw [getOrRefreshToken_usable hu hnone hlogin, onlyRaises_bind]
      rcases signTra_cases x.scopedCertificate x.signing with ⟨hsign, hok⟩ | ⟨hsign, e, he, hne⟩
      · simp only [TokenCloses, hu, hnone, hlogin, hsign, hok, true_and, onlyRaises_ok,
          onlyRaises_bind, onlyRaises_loginCms, forall_const]
        constructor
        · intro h hgrants
          obtain ⟨ticket, hticket⟩ := loginCms_ok.mpr hgrants
          have hlast := h ticket hticket
          cases hrefused : x.refused with
          | none => rfl
          | some text =>
            rw [hrefused] at hlast
            exact (onlyRaises_throw.mp hlast).elim
        · intro h ticket hticket
          rw [h (loginCms_ok.mp ⟨ticket, hticket⟩)]
          exact onlyRaises_pure
      · refine iff_of_false (fun h => hne (h.1 e he)) fun h => ?_
        rw [(h.2 hnone hlogin).1] at hsign
        cases hsign
    · have hnot : readCachedToken now c "wsfe" = none → ¬ x.logsIn now := not_and.mp hlogin
      refine iff_of_true ?_ ⟨hu, fun hnone hin => absurd hin (hnot hnone)⟩
      rcases getOrRefreshToken_found hu hnot with ⟨-, ticket, hticket⟩ | ⟨-, hbusy⟩
      · rw [hticket]
        exact onlyRaises_ok
      · rw [hbusy]
        exact onlyRaises_error.mpr (.inl rfl)
  · refine iff_of_false (fun h => hu ?_) (fun h => hu h.1)
    rw [getOrRefreshToken, onlyRaises_bind, beforeLock, onlyRaises_bind] at h
    exact onlyRaises_checkUsable.mp h.1.1

theorem getOrRefreshToken_ok {x : TokenRun} (h : TokenCloses now c x) :
    (∃ ticket, getOrRefreshToken now c "wsfe" x = .ok ticket) ↔ HasTicket now c x := by
  by_cases hlogin : readCachedToken now c "wsfe" = none ∧ x.logsIn now
  · obtain ⟨hnone, hlogin⟩ := hlogin
    obtain ⟨hsign, hrefused⟩ := h.2 hnone hlogin
    rcases signTra_cases x.scopedCertificate x.signing with ⟨-, hok⟩ | ⟨hno, -⟩
    · have hticket : HasTicket now c x ↔ x.reply.grants = true := by
        simp [HasTicket, hnone, hlogin.1, hlogin.2]
      rw [hticket, getOrRefreshToken_usable h.1 hnone hlogin, hok]
      constructor
      · rintro ⟨ticket, h⟩
        simp only [bind_eq_ok] at h
        obtain ⟨-, -, ticket, h, -⟩ := h
        exact loginCms_ok.mp ⟨ticket, h⟩
      · intro hgrants
        obtain ⟨ticket, h⟩ := loginCms_ok.mpr hgrants
        exact ⟨ticket, by rw [hrefused hgrants, h]; rfl⟩
    · rw [hsign] at hno
      cases hno
  · rcases getOrRefreshToken_found h.1 (not_and.mp hlogin) with ⟨hticket, hok⟩ | ⟨hticket, hbusy⟩
    · exact iff_of_true hok hticket
    · refine iff_of_false ?_ hticket
      rw [hbusy]
      nofun

theorem onlyRaises_getAuth {x : TokenRun} :
    OnlyRaises Closing (getAuth now c issuerCuit x) ↔
      TokenCloses now c x ∧ (HasTicket now c x → PyText.int? issuerCuit ≠ none) := by
  rw [getAuth, onlyRaises_bind, onlyRaises_getOrRefreshToken]
  refine and_congr_right fun hclose => ?_
  rw [← getOrRefreshToken_ok hclose]
  cases PyText.int? issuerCuit with
  | none => simp [Closing]
  | some cuit => simp

theorem getAuth_ok {x : TokenRun} (h : TokenCloses now c x)
    (hcuit : HasTicket now c x → PyText.int? issuerCuit ≠ none) :
    (∃ auth, getAuth now c issuerCuit x = .ok auth) ↔ HasTicket now c x := by
  constructor
  · rintro ⟨auth, hauth⟩
    obtain ⟨ticket, hticket, -⟩ := bind_eq_ok.mp hauth
    exact (getOrRefreshToken_ok h).mp ⟨ticket, hticket⟩
  · intro hticket
    obtain ⟨ticket, hok⟩ := (getOrRefreshToken_ok h).mpr hticket
    obtain ⟨cuit, hint⟩ := Option.ne_none_iff_exists'.mp (hcuit hticket)
    exact ⟨(ticket, cuit), by rw [getAuth, hok, hint]; rfl⟩

theorem classify_cases (exc : TransportException) :
    classifyTransportException exc = .aborted ∨ classifyTransportException exc = .uncertain := by
  unfold classifyTransportException
  repeat' split
  all_goals simp

theorem onlyRaises_getOperation {x : SendRun} :
    OnlyRaises Closing (getOperation x) ↔ x.hasOperation = true ∧
      x.building.all (classifyTransportException · == .aborted) = true := by
  unfold getOperation
  cases x.hasOperation with
  | false => simp [Closing]
  | true =>
    cases x.building with
    | none => simp
    | some exc => rcases classify_cases exc with h | h <;> simp [call, raiseArca, Closing, h]

theorem onlyRaises_beforeEnvelope {x : SendRun} :
    OnlyRaises Closing (beforeEnvelope now c issuerCuit x) ↔ SendCloses now c issuerCuit x := by
  rw [beforeEnvelope, onlyRaises_bind, SendCloses]
  cases x.wsdl with
  | some text => exact iff_of_true ⟨onlyRaises_error.mpr (.inl rfl), nofun⟩ (.inl nofun)
  | none =>
    simp only [getClient, onlyRaises_pure, onlyRaises_bind, onlyRaises_getAuth,
      onlyRaises_getOperation, ne_eq, not_true_eq_false, false_or, true_and, implies_true, and_true]
    constructor
    · intro h
      obtain ⟨⟨hclose, hcuit⟩, hrest⟩ := h () rfl
      refine ⟨hclose, fun hticket => ⟨hcuit hticket, ?_⟩⟩
      obtain ⟨auth, hauth⟩ := (getAuth_ok hclose hcuit).mpr hticket
      exact hrest auth hauth
    · rintro ⟨hclose, hrest⟩ - -
      have hcuit := fun hticket => (hrest hticket).1
      exact ⟨⟨hclose, hcuit⟩,
        fun auth hauth => (hrest ((getAuth_ok hclose hcuit).mp ⟨auth, hauth⟩)).2⟩

end Exact

/-! ## Runs with these failures -/

namespace BeforeSend

variable {W : Type}

/-- The actions of the system, and a send that fails on its way out. -/
inductive Act (W : Type)
  | base (a : ArcaEdi.Act W)
  /-- `fe_cae_solicitar` raises before its envelope leaves. -/
  | fails (w : W) (x : SendRun)

/-- What `_l10n_ar_arca_authorize` does not catch ends the run. -/
def fails [DecidableEq W] (s : Sys W) (w : W) (x : SendRun) : Option (Sys W) :=
  match s.worker w with
  | ⟨session, .request m key (.sending tx i r)⟩ =>
    match beforeEnvelope s.clock (tx.view (.certificate r.certificateId)) r.issuerCuit x with
    | .ok _ => none
    | .error e =>
      match authorizeOutcome s.clock 0 tx m i (.error e) with
      | .ok tx' => some (s.setWorker w ⟨session, .request m key (.answered tx' i r)⟩)
      | .error _ => some (s.endRun w .idle)
  | _ => none

def step [DecidableEq W] (P : Platform) (s : Sys W) : Act W → Option (Sys W)
  | .base (.sendFails _ _) => none
  | .base a => ArcaEdi.step P s a
  | .fails w x => fails s w x

def system [DecidableEq W] (P : Platform) : Runs.System (Sys W) (Act W) where
  init := Initial
  step := step P

/-! ## A run that ends with nothing sent -/

def unsent (s : Sys W) (i : Nat) : Bool := s.arca.sent.all (·.attempt != i)

/-- The step ends the run of attempt `i`, which sent nothing, and is not killed. -/
structure EndsUnsent [DecidableEq W] (P : Platform) (s : Sys W) (a : Act W) (s' : Sys W) (w : W)
    (m i : Nat) : Prop where
  step : step P s a = some s'
  job : ∃ key stage, (s.worker w).job = .request m key stage
  running : (s.worker w).job.running? = some i
  ended : (s'.worker w).job.running? ≠ some i
  alive : a ≠ .base (.kill w)
  unsent : unsent s i = true

/-- The attempt is closed as aborted or rejected, and its invoice is rejected. -/
def Closed (v : View) (m i : Nat) : Prop :=
  (∃ b : Attempt, v (.attempt i) = some b ∧ (b.state = .aborted ∨ b.state = .rejected)) ∧
    (v (.move m) : Move).arcaState = .rejected

/-- A failure before the envelope is one that closes. PostgreSQL takes the
outcome of a request that never left, and nothing else interrupts such a run. -/
def caught (s : Sys W) : Act W → Bool
  | .fails w x =>
    match s.worker w with
    | ⟨_, .request _ _ (.sending tx _ r)⟩ =>
      decide (SendCloses s.clock (tx.view (.certificate r.certificateId)) r.issuerCuit x)
    | _ => true
  | .base (.settle w) =>
    match s.worker w with
    | ⟨_, .request _ _ (.answered tx i _)⟩ => !unsent s i || (s.commitTx tx).isSome
    | _ => true
  | .base (.abort w) => !(s.worker w).job.running?.any (unsent s)
  | _ => true

variable [DecidableEq W] {P : Platform} {s s' : Sys W} {a : Act W} {b : ArcaEdi.Act W} {w : W}
  {m i : Nat}

theorem outcome_closing (now d m : Nat) {t : DbTx} {c : Attempt} {e : Exn}
    (hview : t.view (.attempt i) = some c) (he : Closing e) :
    ∃ t', authorizeOutcome now d t m i (.error e) = .ok t' ∧ Closed t'.view m i ∧
      Key.attempt i ∈ t'.dirty ∧ Key.move m ∈ t'.dirty := by
  match e, he with
  | .arca ⟨.aborted, message, code, _⟩, _ =>
    refine ⟨_, rfl, ?_⟩
    rw [writeArca_writeAttempt hview]
    exact ⟨⟨⟨_, pairWrite_attempt_self .., .inl rfl⟩, by rw [pairWrite_move_self]⟩, by simp, by simp⟩
  | .arca ⟨.businessError, message, code, _⟩, _ =>
    refine ⟨_, rfl, ?_⟩
    rw [writeArca_writeAttempt hview]
    exact ⟨⟨⟨_, pairWrite_attempt_self .., .inr rfl⟩, by rw [pairWrite_move_self]⟩, by simp, by simp⟩

theorem fails_sendFails {x : SendRun} (hok : caught s (.fails w x) = true)
    (h : fails s w x = some s') : ∃ e, ArcaEdi.step P s (.sendFails w e) = some s' := by
  unfold fails at h
  split at h
  · next session m key tx i r hw =>
    simp only [caught, hw, decide_eq_true_eq] at hok
    split at h
    · cases h
    · next e he =>
      have hclosing : Closing e := onlyRaises_beforeEnvelope.mpr hok e he
      match e, hclosing with
      | .arca e, hkind =>
        refine ⟨e, ?_⟩
        simp only [ArcaEdi.step, Sys.sendFails, hw]
        exact (if_pos hkind).trans h
  · cases h

theorem base_step (hok : caught s a = true) (h : step P s a = some s') :
    ∃ b, ArcaEdi.step P s b = some s' ∧ (a = .base b ∨ ∃ w e, b = .sendFails w e) := by
  cases a with
  | base b =>
    unfold step at h
    split at h
    · cases h
    · next heq =>
      cases heq
      exact ⟨_, h, .inl rfl⟩
    · next heq => cases heq
  | fails w x =>
    obtain ⟨e, he⟩ := fails_sendFails hok h
    exact ⟨_, he, .inr ⟨w, e, rfl⟩⟩

theorem reachable_base (h : Reachable (system P) (fun s a => caught s a = true) s) :
    Reachable (ArcaEdi.system P) Always s := by
  induction h with
  | init h => exact .init h
  | step _ hok hs ih =>
    obtain ⟨b, hb, -⟩ := base_step hok hs
    exact .step ih trivial hb

/-! ## What a run knows of its request -/

omit [DecidableEq W] in
theorem unsent_iff : unsent s i = true ↔ ∀ T ∈ s.arca.sent, T.attempt ≠ i := by
  simp [unsent]

omit [DecidableEq W] in
theorem mem_settle (n : Nat) (fate : Fate) {T : Transmission} (h : T ∈ s.arca.sent) :
    ∃ T' ∈ (s.arca.settle n fate).sent, T'.attempt = T.attempt := by
  by_cases hn : s.arca.sent[n]? = some T
  · refine ⟨{ T with fate := fate }, List.mem_iff_getElem?.mpr ⟨n, ?_⟩, rfl⟩
    rw [Arca.settle, List.getElem?_modify, hn]
    simp
  · exact ⟨T, mem_modify_of_ne h hn, rfl⟩

theorem unsent_step (h : ArcaEdi.Step P s b s') (hu : unsent s' i = true) : unsent s i = true := by
  rw [unsent_iff] at hu ⊢
  intro T hT
  have hkept : ∀ T' ∈ s'.arca.sent, T'.attempt = T.attempt → T.attempt ≠ i :=
    fun T' hT' he => he ▸ hu T' hT'
  cases h with
  | transmit hw ha => exact hkept T (List.mem_append_left _ hT) rfl
  | @record n cae arca h =>
    obtain ⟨u, -, -, hissue⟩ := record_spec h
    obtain ⟨T', hT', he⟩ := mem_settle n .recorded hT
    exact hkept T' (by rw [show _ = _ from (issue_spec hissue).2.1]; exact hT') he
  | @refuse n arca h =>
    obtain ⟨u, -, -, rfl⟩ := refuse_spec h
    obtain ⟨T', hT', he⟩ := mem_settle n .refused hT
    exact hkept T' hT' he
  | elsewhere h => exact hkept T (by rw [show _ = _ from (issue_spec h).2.1]; exact hT) rfl
  | _ => exact hkept T hT rfl

/-- A request that is on its way is on record. An outcome of one that never left
is about to close the attempt. -/
structure Tracked (s : Sys W) : Prop where
  awaiting : ∀ w m key t i r, (s.worker w).job = .request m key (.awaiting t i r) →
    unsent s i = false
  answered : ∀ w m key t i r, (s.worker w).job = .request m key (.answered t i r) →
    unsent s i = true → Closed t.view m i ∧ Key.attempt i ∈ t.dirty ∧ Key.move m ∈ t.dirty

theorem transmit_sent {key : Nat} {t : DbTx} {r : Request}
    (hjob : (s.worker w).job = .request m key (.sending t i r))
    (h : ArcaEdi.step P s (.transmit w) = some s') : unsent s' i = false := by
  obtain ⟨se, m', key', j, t', r', env, cuit, hw, -, hsent⟩ := transmit_spec h
  rw [hw] at hjob
  cases hjob
  simp [unsent, hsent]

theorem tracked_step (hs : Sound s) (ht : Tracked s) (h : ArcaEdi.step P s b = some s') :
    Tracked s' := by
  have hstep := step_cases h
  have hsent : ∀ {i}, unsent s i = false → unsent s' i = false := by
    intro i hi
    by_contra hu
    rw [unsent_step hstep (by simpa using hu)] at hi
    cases hi
  refine ⟨fun w m key t i r hjob => ?_, fun w m key t i r hjob hu => ?_⟩
  · rcases job_step hstep w with ⟨-, hsame⟩ | ⟨-, hmove⟩
    · exact hsent (ht.awaiting w m key t i r (hsame ▸ hjob))
    · rw [hjob] at hmove
      generalize hbefore : (s.worker w).job = before at hmove
      cases hmove with
      | transmit => exact transmit_sent hbefore h
  · rcases job_step hstep w with ⟨-, hsame⟩ | ⟨-, hmove⟩
    · exact ht.answered w m key t i r (hsame ▸ hjob) (unsent_step hstep hu)
    · have hsound := hs.jobs w
      rw [hjob] at hmove
      generalize hbefore : (s.worker w).job = before at hmove hsound
      cases hmove with
      | outcome hf hout =>
        cases hf with
        | @unsent e he =>
          obtain ⟨-, c, hview, -⟩ := hsound
          obtain ⟨t', ht', hclosed⟩ := outcome_closing _ _ _ hview (e := .arca e) he
          rw [ht'] at hout
          cases hout
          exact hclosed
        | answered hh =>
          -- What was answered is on record.
          rw [hsent (ht.awaiting w m key _ i r hbefore)] at hu
          cases hu

theorem reachable_tracked (h : Reachable (ArcaEdi.system P) Always s) : Tracked s := by
  refine reachable_inv ?_ (fun _ _ _ hr _ ht h => tracked_step (reachable_sound hr) ht h) h
  intro s hi
  refine ⟨fun w m key t i r hjob => ?_, fun w m key t i r hjob => ?_⟩
  all_goals
    rw [hi.workers w] at hjob
    cases hjob

/-! ## The end of a run -/

/-- What the worker of a run may do next. -/
inductive Next (w : W) : Stage → ArcaEdi.Act W → Prop
  | enter : Next w .locked (.enter w)
  | lastAuthorized {t : DbTx} {c : Intent} {reply : SoapReply UltimoAutorizado} :
      Next w (.asking t c) (.lastAuthorized w reply)
  | checkpoint {t : DbTx} {i : Nat} {r : Request} : Next w (.prepared t i r) (.checkpoint w)
  | resume {i : Nat} {r : Request} : Next w (.recorded i r) (.resume w)
  | sendFails {t : DbTx} {i : Nat} {r : Request} {e : ArcaError} :
      Next w (.sending t i r) (.sendFails w e)
  | transmit {t : DbTx} {i : Nat} {r : Request} : Next w (.sending t i r) (.transmit w)
  | answer {t : DbTx} {i : Nat} {r : Request} {reply : SoapReply (Option CaeResponse)} {d : Nat} :
      Next w (.awaiting t i r) (.answer w reply d)
  | settle {t : DbTx} {i : Nat} {r : Request} : Next w (.answered t i r) (.settle w)
  | abort {stage : Stage} : Next w stage (.abort w)
  | kill {stage : Stage} : Next w stage (.kill w)

theorem next_act {se : Option DbTx} {key : Nat} {stage : Stage}
    (hw : s.worker w = ⟨se, .request m key stage⟩) (hact : b.worker? = some w)
    (h : ArcaEdi.step P s b = some s') : Next w stage b := by
  cases b <;> cases hact <;>
    simp only [ArcaEdi.step, Sys.start, Sys.user, Sys.commit, Sys.rollback, Sys.request, Sys.enter,
      Sys.lastAuthorized, Sys.checkpoint, Sys.resume, Sys.sendFails, Sys.transmit, Sys.answer,
      Sys.reconcileMove, Sys.reconcileAttempts, Sys.search, Sys.isolate, Sys.consult, Sys.skip,
      Sys.settle, hw] at h
  all_goals cases stage <;> first | constructor | cases h

theorem running_ends {se : Option DbTx} {key : Nat} {stage : Stage} (hs : Sound s)
    (hw : s.worker w = ⟨se, .request m key stage⟩)
    (hrun : (Job.request m key stage).running? = some i) (h : ArcaEdi.step P s b = some s')
    (hend : (s'.worker w).job.running? ≠ some i) :
    b = .kill w ∨ b = .abort w ∨ (∃ t r, b = .settle w ∧ stage = .answered t i r) ∨
      ∃ t r, stage = .awaiting t i r := by
  have hact : b.worker? = some w := by
    by_contra hne
    rw [step_worker (step_cases h) hne, hw] at hend
    exact hend hrun
  have hkept : ∀ {stage' : Stage},
      s'.worker = Function.update s.worker w ⟨se, .request m key stage'⟩ →
      (Job.request m key stage').running? ≠ some i := by
    intro stage' hs'
    rw [hs', Function.update_self] at hend
    exact hend
  cases next_act hw hact h with
  | enter | lastAuthorized | checkpoint => cases hrun
  | resume =>
    simp only [ArcaEdi.step, Sys.resume, hw] at h
    cases h
    exact (hkept rfl hrun).elim
  | transmit =>
    simp only [ArcaEdi.step, Sys.transmit, hw] at h
    split at h <;> cases h
    exact (hkept rfl hrun).elim
  | @sendFails t j r e =>
    obtain ⟨-, c, hview, -⟩ := job_sound hs hw
    simp only [ArcaEdi.step, Sys.sendFails, hw] at h
    split at h
    · next hkind =>
      obtain ⟨t', ht', -⟩ := outcome_closing s.clock 0 m hview (e := .arca e) hkind
      rw [ht'] at h
      cases h
      exact (hkept rfl hrun).elim
    · cases h
  | @answer t j r =>
    cases hrun
    exact .inr (.inr (.inr ⟨t, r, rfl⟩))
  | @settle t j r =>
    cases hrun
    exact .inr (.inr (.inl ⟨t, r, rfl, rfl⟩))
  | abort => exact .inr (.inl rfl)
  | kill => exact .inl rfl

theorem closed_apply {db : Db} {t : DbTx} (h : Closed t.view m i) (hattempt : Key.attempt i ∈ t.dirty)
    (hmove : Key.move m ∈ t.dirty) : Closed (db.apply t).row m i := by
  obtain ⟨⟨c, hview, hstate⟩, hrejected⟩ := h
  refine ⟨⟨c, ?_, hstate⟩, ?_⟩
  · rw [apply_row_dirty db hattempt, hview]
  · rw [apply_row_dirty db hmove, hrejected]

theorem unsent_closed (hs : Reachable (system P) (fun s a => caught s a = true) s)
    (hok : caught s a = true) (h : EndsUnsent P s a s' w m i) : Closed s'.db.row m i := by
  have hbase := reachable_base hs
  have hsound := reachable_sound hbase
  obtain ⟨key, stage, hjob⟩ := h.job
  have hrun : (Job.request m key stage).running? = some i := hjob ▸ h.running
  obtain ⟨se, hw⟩ : ∃ se, s.worker w = ⟨se, .request m key stage⟩ := ⟨_, by rw [← hjob]⟩
  obtain ⟨b, hb, hact⟩ := base_step hok h.step
  rcases running_ends hsound hw hrun hb h.ended with rfl | rfl | ⟨t, r, rfl, rfl⟩ | ⟨t, r, rfl⟩
  · rcases hact with rfl | ⟨w', e, he⟩
    · exact absurd rfl h.alive
    · cases he
  · rcases hact with rfl | ⟨w', e, he⟩
    · simp [caught, h.running, h.unsent] at hok
    · cases he
  · rcases hact with rfl | ⟨w', e, he⟩
    · obtain ⟨hclosed, hattempt, hmove⟩ :=
        (reachable_tracked hbase).answered w m key t i r hjob h.unsent
      simp only [caught, hw, h.unsent, Bool.not_true, Bool.false_or] at hok
      obtain ⟨db, hdb⟩ := Option.isSome_iff_exists.mp hok
      simp only [ArcaEdi.step, Sys.settle, hw, hdb] at hb
      cases hb
      obtain ⟨-, rfl, -⟩ := commitTx_spec hdb
      exact closed_apply hclosed hattempt hmove
    · cases he
  · -- It is waiting for the answer to what it sent.
    have hsent := (reachable_tracked hbase).awaiting w m key t i r hjob
    rw [h.unsent] at hsent
    cases hsent

/-- Before the envelope leaves, `fe_cae_solicitar` raises nothing but what closes
the attempt exactly where the condition holds. In every run whose steps meet it,
a run that ends with nothing sent, and is not killed, leaves its attempt aborted
or rejected and its invoice rejected. -/
theorem failures_before_sending :
    (∀ now c issuerCuit x, (∀ e, beforeEnvelope now c issuerCuit x = .error e → Closing e) ↔
      SendCloses now c issuerCuit x) ∧
    ∀ s : Sys W, Reachable (system P) (fun s a => caught s a = true) s →
      ∀ a s' w m i, caught s a = true → EndsUnsent P s a s' w m i → Closed s'.db.row m i :=
  ⟨fun _ _ _ _ => onlyRaises_beforeEnvelope, fun _ hs _ _ _ _ _ hok h => unsent_closed hs hok h⟩

/-! ## The office -/

namespace Office

open ArcaEdi.Office (platform initial posted recorded)

/-- Nothing goes wrong outside of the database, up to the login. -/
def quiet : SendRun where
  wsdl := none
  token := ⟨true, { name := "arca", companyId := 0, holderCuit := "", environment := .testing },
    none, .exception "ReadTimeout(...)", none⟩
  hasOperation := true
  building := none

/-- A worker is about to send for invoice 0, after `between`. -/
def aboutToSend (w : Fin 3) (between : List (ArcaEdi.Act (Fin 3))) : List (Act (Fin 3)) :=
  (posted 0 0 ++ recorded w 0 0 ++ between ++ [ArcaEdi.Act.resume w]).map .base

/-- A user revokes the certificate. -/
def revoked (w : Fin 3) : List (ArcaEdi.Act (Fin 3)) :=
  [.start w, .user w (.revoke 0), .commit w]

/-- The step ends the run for attempt 0 of invoice 0, with nothing sent. -/
def ends (w : Fin 3) (a : Act (Fin 3)) (s : Sys (Fin 3)) (p : Sys (Fin 3) → Bool) : Bool :=
  (s.worker w).job.running? == some 0 && ((s.worker w).job matches .request 0 _ _) && unsent s 0 &&
    (step platform s a).any fun s' => (s'.worker w).job.running? != some 0 && p s'

theorem ends_spec {w : Fin 3} {a : Act (Fin 3)} {s : Sys (Fin 3)} {p : Sys (Fin 3) → Bool}
    (ha : a ≠ .base (.kill w)) (h : ends w a s p = true) :
    ∃ s', EndsUnsent platform s a s' w 0 0 ∧ p s' = true := by
  simp only [ends, Bool.and_eq_true, beq_iff_eq, Option.any_eq_true, bne_iff_ne] at h
  obtain ⟨⟨⟨hrun, hjob⟩, hunsent⟩, s', hs', hend, hp⟩ := h
  refine ⟨s', ⟨hs', ?_, hrun, hend, ha, hunsent⟩, hp⟩
  split at hjob
  · next key stage heq => exact ⟨key, stage, heq⟩
  · cases hjob

theorem reaches (ok : Sys (Fin 3) → Act (Fin 3) → Prop) [∀ s a, Decidable (ok s a)]
    (acts : List (Act (Fin 3))) (p : Sys (Fin 3) → Bool)
    (h : (Runs.run (system platform) ok initial acts).any p = true) :
    ∃ s, Runs.Reachable (system platform) ok s ∧ p s = true :=
  Runs.run_reaches ArcaEdi.Office.initial_initial h

end Office

open ArcaEdi.Office (platform arcaState attemptIs)

theorem failures_before_sending_wsdl :
    ∃ s s' : Sys (Fin 3), EndsUnsent platform s (.base (.settle 0)) s' 0 0 0 ∧
      Closed s'.db.row 0 0 := by
  obtain ⟨s, hs, h⟩ := Office.reaches (fun s a => caught s a = true)
    (Office.aboutToSend 0 [] ++ [.fails 0 { Office.quiet with wsdl := some "ConnectionError(...)" }])
    (fun s => caught s (.base (.settle 0)) && Office.ends 0 (.base (.settle 0)) s fun _ => true)
    (by decide +kernel)
  rw [Bool.and_eq_true] at h
  obtain ⟨s', hends, -⟩ := Office.ends_spec (by nofun) h.2
  exact ⟨s, s', hends, failures_before_sending.2 s hs _ s' 0 0 0 h.1 hends⟩

/-- The certificate is revoked between the checkpoint and the second look at it. -/
theorem sent_but_never_left :
    ∃ s s' : Sys (Fin 3), Reachable (system platform) Always s ∧
      EndsUnsent platform s (.fails 0 Office.quiet) s' 0 0 0 ∧ ¬ Closed s'.db.row 0 0 ∧
      attemptIs s' 0 0 .sent = true ∧ arcaState s' 0 = .processing := by
  obtain ⟨s, hs, h⟩ := Office.reaches Always (Office.aboutToSend 0 (Office.revoked 2))
    (fun s => Office.ends 0 (.fails 0 Office.quiet) s fun s' =>
      attemptIs s' 0 0 .sent && arcaState s' 0 == .processing) (by decide +kernel)
  obtain ⟨s', hends, hp⟩ := Office.ends_spec (by nofun) h
  rw [Bool.and_eq_true, beq_iff_eq] at hp
  refine ⟨s, s', hs, hends, fun hclosed => ?_, hp.1, hp.2⟩
  have hrejected := hclosed.2
  rw [show (s'.db.row (.move 0) : Move).arcaState = .processing from hp.2] at hrejected
  cases hrejected

end BeforeSend

end ArcaEdi
