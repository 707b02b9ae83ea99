import ArcaEdi.Routes

/-!
# One request after another

`_l10n_ar_arca_request_cae` from end to end, with nobody else at work. The loops of
the cron and of the callback call it once for each invoice.
-/

namespace ArcaEdi

open Snapshot Raise

/-! ## The database between two requests -/

/-- The committed rows and the sequence of attempt ids. The unique index holds of them. -/
structure Ledger where
  db : Db
  nextAttempt : Nat
  unique : uniqueAuthorized db.row nextAttempt

namespace Ledger

/-- A commit, with the unique index on authorized documents. -/
def commit (s : Ledger) (t : DbTx) (nextAttempt : Nat) : Option Ledger :=
  match t.commit s.db with
  | some db => if h : uniqueAuthorized db.row nextAttempt then some ⟨db, nextAttempt, h⟩ else none
  | none => none

end Ledger

/-! ## `_l10n_ar_arca_request_cae` -/

/-- What ARCA answers to the two calls of a request. -/
structure Answers where
  ultimoAutorizado : Line → SoapReply UltimoAutorizado
  caeSolicitar : Coordinates → SoapReply (Option CaeResponse)

/-- `_l10n_ar_arca_authorize`, up to its checkpoint. None where it raises. -/
def authorizeUpTo (P : Platform) (now : Nat) (answers : Answers) (s : Ledger) (m : Nat) :
    Option (Ledger × Request) := do
  let c ← (authorizeStart now s.db.row m).toOption
  let (env, cuit) ← Sys.auth now s.db.row c.certificateId c.seq.issuerCuit
  let reply := answers.ultimoAutorizado ⟨env, cuit, c.seq.posNumber, c.seq.documentTypeCode⟩
  let last ← (feCompUltimoAutorizado c.seq.posNumber reply).toOption
  let (t, r) ← (authorizeCreate P now (Tx.start s.db) m s.nextAttempt c last).toOption
  let s' ← s.commit t (s.nextAttempt + 1)
  return (s', r)

/-- From the answer on. Where the outcome cannot be written, the checkpoint is what is left. -/
def authorizeFrom (now : Nat) (s : Ledger) (m i : Nat) (result : Except Exn CaeResult) : Ledger :=
  match authorizeOutcome now 0 (Tx.start s.db) m i result with
  | .ok t => (s.commit t s.nextAttempt).getD s
  | .error _ => s

/-- The whole request, called from a session that sees `v`, and the voucher that it
asked ARCA for. -/
def requestCae (P : Platform) (now : Nat) (v : View) (answers : Answers) (s : Ledger) (m : Nat) :
    Ledger × Option Coordinates :=
  match Sys.requestKey P v m, authorizeUpTo P now answers s m with
  | .ok _, some (s', r) =>
    match Sys.auth now s'.db.row r.certificateId r.issuerCuit with
    | some (env, cuit) =>
      let c : Coordinates := ⟨⟨env, cuit, r.header.ptoVta, r.header.cbteTipo⟩, r.detail.cbteDesde⟩
      (authorizeFrom now s' m s.nextAttempt (feCaeSolicitar (answers.caeSolicitar c)), some c)
    | none => (s', none)
  | _, _ => (s, none)

/-! ## What a request leaves as it was -/

/-- Only attempts and the ARCA fields of invoices differ. -/
structure Retains (v v' : View) : Prop where
  move : ∀ m, ∃ st, (v' (.move m) : Move) = { (v (.move m) : Move) with toArcaStatus := st }
  company : ∀ c, (v' (.company c) : Company) = v (.company c)
  certificate : ∀ k, (v' (.certificate k) : Certificate) = v (.certificate k)
  journal : ∀ j, (v' (.journal j) : Journal) = v (.journal j)

variable {P : Platform} {now m n : Nat} {v v' v'' : View} {s s' : Ledger} {t : DbTx}

theorem retains_refl (v : View) : Retains v v :=
  ⟨fun m => ⟨(v (.move m) : Move).toArcaStatus, rfl⟩, fun _ => rfl, fun _ => rfl, fun _ => rfl⟩

theorem retains_trans (h : Retains v v') (h' : Retains v' v'') : Retains v v'' := by
  refine ⟨fun m => ?_, fun c => (h'.company c).trans (h.company c),
    fun k => (h'.certificate k).trans (h.certificate k), fun j => (h'.journal j).trans (h.journal j)⟩
  obtain ⟨st, hst⟩ := h.move m
  obtain ⟨st', hst'⟩ := h'.move m
  exact ⟨st', by rw [hst', hst]⟩

theorem retains_pairWrite {i : Nat} {a : Attempt} {st : ArcaStatus} :
    Retains t.view (pairWrite t i a m st).view := by
  refine ⟨fun m' => ?_, pairWrite_company, pairWrite_certificate, fun j => ?_⟩
  · by_cases hm : m' = m
    · subst hm
      exact ⟨st, pairWrite_move_self ..⟩
    · exact ⟨(t.view (.move m') : Move).toArcaStatus, by rw [pairWrite_move_ne hm]⟩
  · rw [pairWrite, write_view_ne _ _ (by simp), write_view_ne _ _ (by simp)]

theorem documentNumberParts_congr (h : Retains v v') :
    (v' (.move m) : Move).documentNumberParts = (v (.move m) : Move).documentNumberParts := by
  obtain ⟨st, hst⟩ := h.move m
  rw [hst]
  rfl

theorem moveSequence_congr (h : Retains v v') : moveSequence v' m = moveSequence v m := by
  have hcode : (v' (.move m) : Move).documentTypeCode = (v (.move m) : Move).documentTypeCode := by
    obtain ⟨st, hst⟩ := h.move m
    rw [hst]
    unfold Move.documentTypeCode
    rfl
  have hcompany : (v' (.company (v' (.move m) : Move).companyId) : Company) =
      v (.company (v (.move m) : Move).companyId) := by
    obtain ⟨st, hst⟩ := h.move m
    rw [hst, h.company]
  unfold moveSequence
  simp only [documentNumberParts_congr h, hcode, hcompany]

theorem state_congr (h : Retains v v') :
    (v' (.move m) : Move).state = (v (.move m) : Move).state := by
  obtain ⟨st, hst⟩ := h.move m
  rw [hst]

theorem journal_congr (h : Retains v v') :
    (v' (.journal (v' (.move m) : Move).journalId) : Journal) =
      v (.journal (v (.move m) : Move).journalId) := by
  obtain ⟨st, hst⟩ := h.move m
  rw [hst, h.journal]

theorem isEdi_congr (h : Retains v v') : isEdi v' m = isEdi v m := by
  have hmove : ∀ j : Journal, (((v' (.move m) : Move).countryCode == "AR" &&
      (v' (.move m) : Move).isSaleDocument && (v' (.move m) : Move).useDocuments && j.arcaEdiEnabled) =
      ((v (.move m) : Move).countryCode == "AR" && (v (.move m) : Move).isSaleDocument &&
        (v (.move m) : Move).useDocuments && j.arcaEdiEnabled)) := by
    intro j
    obtain ⟨st, hst⟩ := h.move m
    rw [hst]
  unfold isEdi
  simp only [journal_congr h]
  exact hmove _

theorem authorizeStart_congr (h : Retains v v') (hm : (v' (.move m) : Move) = v (.move m)) :
    authorizeStart now v' m = authorizeStart now v m := by
  have hjournal := journal_congr (m := m) h
  have hcompany : (v' (.company (v' (.move m) : Move).companyId) : Company) =
      v (.company (v (.move m) : Move).companyId) := by
    rw [hm, h.company]
  unfold authorizeStart checkReady isEdi getCertificate
  simp only [hm, hjournal, hcompany, h.certificate]

theorem auth_congr (h : Retains v v') (k : Nat) (issuerCuit : String) :
    Sys.auth now v' k issuerCuit = Sys.auth now v k issuerCuit := by
  unfold Sys.auth
  simp only [h.certificate]

theorem associatedDocuments_congr (h : Retains v v') (move : Move) (docTypeCode : Nat) :
    Move.associatedDocuments v' move docTypeCode = Move.associatedDocuments v move docTypeCode := by
  unfold Move.associatedDocuments
  have horigin : ∀ o, (v' (.move o) : Move).documentType = (v (.move o) : Move).documentType ∧
      (v' (.move o) : Move).documentNumberParts = (v (.move o) : Move).documentNumberParts ∧
      (v' (.move o) : Move).invoiceDate = (v (.move o) : Move).invoiceDate := by
    intro o
    obtain ⟨st, hst⟩ := h.move o
    rw [hst]
    exact ⟨rfl, rfl, rfl⟩
  simp only [(horigin _).1, (horigin _).2.1, (horigin _).2.2]

theorem prepareRequest_congr {today : Date} (h : Retains v v') (move : Move)
    (docTypeCode posNumber number : Nat) :
    move.prepareRequest today v' docTypeCode posNumber number =
      move.prepareRequest today v docTypeCode posNumber number := by
  unfold Move.prepareRequest
  simp only [associatedDocuments_congr h]

/-! ## What a request asks for -/

/-- A number of a sequence, whose CUIT is as ARCA reads it. -/
structure Numbered where
  cuit : Int
  ptoVta : Nat
  cbteTipo : Nat
  number : Nat
  deriving DecidableEq

def Numbered.sequence (a : Numbered) : Int × Nat × Nat := (a.cuit, a.ptoVta, a.cbteTipo)

def numberedOf (v : View) (m : Nat) : Option Numbered :=
  match moveSequence v m, (v (.move m) : Move).documentNumberParts with
  | .ok q, .ok (_, number) =>
    (PyText.int? q.issuerCuit).map fun cuit => ⟨cuit, q.posNumber, q.documentTypeCode, number⟩
  | _, _ => none

/-- The voucher that a request for the invoice asks for. -/
def voucherOf (v : View) (m : Nat) : Option Coordinates := do
  let k ← (v (.company (v (.move m) : Move).companyId) : Company).certificateId
  let a ← numberedOf v m
  return ⟨⟨(v (.certificate k) : Certificate).environment, a.cuit, a.ptoVta, a.cbteTipo⟩, a.number⟩

/-- The index entry of an attempt for the invoice, once authorized. -/
def documentOf (v : View) (m : Nat) : Option FiscalDocument :=
  match moveSequence v m, (v (.move m) : Move).documentNumberParts with
  | .ok q, .ok (_, number) =>
    some ⟨(v (.move m) : Move).companyId, q.issuerCuit, q.posNumber, q.documentTypeCode, number⟩
  | _, _ => none

theorem companyId_congr (h : Retains v v') :
    (v' (.move m) : Move).companyId = (v (.move m) : Move).companyId := by
  obtain ⟨st, hst⟩ := h.move m
  rw [hst]

theorem numberedOf_congr (h : Retains v v') : numberedOf v' m = numberedOf v m := by
  unfold numberedOf
  rw [moveSequence_congr h, documentNumberParts_congr h]

theorem voucherOf_congr (h : Retains v v') : voucherOf v' m = voucherOf v m := by
  have hcompany : (v' (.company (v' (.move m) : Move).companyId) : Company) =
      v (.company (v (.move m) : Move).companyId) := by
    rw [companyId_congr h, h.company]
  unfold voucherOf
  simp only [hcompany, numberedOf_congr h, h.certificate]

theorem documentOf_congr (h : Retains v v') : documentOf v' m = documentOf v m := by
  unfold documentOf
  rw [moveSequence_congr h, documentNumberParts_congr h, companyId_congr h]

theorem getCertificate_spec {k : Nat} (h : getCertificate now v m = .ok k) :
    (v (.company (v (.move m) : Move).companyId) : Company).certificateId = some k := by
  unfold getCertificate at h
  simp only at h
  split at h
  · exact absurd h throw_ne_ok
  · next k' hk =>
    simp only [bind_eq_ok, pure_eq_ok] at h
    obtain ⟨-, -, rfl⟩ := h
    exact hk

theorem start_targets {c : Intent} {env : Environment} {cuit : Int}
    (h : authorizeStart now v m = .ok c)
    (ha : Sys.auth now v c.certificateId c.seq.issuerCuit = some (env, cuit)) :
    voucherOf v m = some ⟨⟨env, cuit, c.seq.posNumber, c.seq.documentTypeCode⟩, c.number⟩ ∧
      documentOf v m = some ⟨(v (.move m) : Move).companyId, c.seq.issuerCuit, c.seq.posNumber,
        c.seq.documentTypeCode, c.number⟩ := by
  obtain ⟨-, hk, hseq, hparts, -⟩ := authorizeStart_spec h
  obtain ⟨-, henv, hcuit⟩ := auth_spec ha
  constructor
  · simp [voucherOf, numberedOf, getCertificate_spec hk, hseq, hparts, hcuit, henv]
  · simp [documentOf, hseq, hparts]

theorem voucherOf_document {m' : Nat} {d : FiscalDocument} (h : documentOf v m = some d)
    (h' : documentOf v m' = some d) : voucherOf v m = voucherOf v m' := by
  unfold documentOf at h h'
  split at h
  · next q _ number hq hparts =>
    split at h'
    · next q' _ number' hq' hparts' =>
      cases h
      obtain ⟨hcompany, hcuit, hpos, htype, hnumber⟩ := FiscalDocument.mk.inj (Option.some.inj h')
      unfold voucherOf numberedOf
      rw [hq, hq', hparts, hparts', hcompany]
      simp only [hcuit, hpos, htype, hnumber]
    · cases h'
  · cases h

/-! ## What a request does -/

theorem ledger_commit {t : DbTx} (h : s.commit t n = some s') :
    s'.db = s.db.apply t ∧ s'.nextAttempt = n := by
  unfold Ledger.commit at h
  split at h
  · next db hdb =>
    split at h
    · cases h
      exact ⟨(commit_eq_some.mp hdb).2, rfl⟩
    · cases h
  · cases h

theorem commit_row_view {t : DbTx} (ht : t.snap = s.db) (h : s.commit t n = some s') :
    s'.db.row = t.view ∧ s'.nextAttempt = n := by
  obtain ⟨hdb, hids⟩ := ledger_commit h
  rw [hdb]
  exact ⟨apply_latest ht, hids⟩

theorem commit_isSome {t : DbTx} (ht : t.snap = s.db) :
    (s.commit t n).isSome ↔ uniqueAuthorized t.view n := by
  have hfits : t.fits s.db := fun _ _ => by rw [ht]
  simp [Ledger.commit, Tx.commit, hfits, apply_latest ht]

/-- The request can be made, but for its number. -/
structure Buildable (P : Platform) (now : Nat) (v : View) (m : Nat) (c : Intent) (line : Line)
    (header : FeCabReq) (detail : FeCaeDetRequest) : Prop where
  start : authorizeStart now v m = .ok c
  auth : Sys.auth now v c.certificateId c.seq.issuerCuit = some (line.environment, line.cuit)
  ptoVta : line.ptoVta = c.seq.posNumber
  cbteTipo : line.cbteTipo = c.seq.documentTypeCode
  request : (v (.move m) : Move).prepareRequest (P.today now) v c.seq.documentTypeCode
    c.seq.posNumber c.number = .ok (header, detail)

/-- What the first checkpoint of a request commits. -/
def checkpointTx (now : Nat) (s : Ledger) (m : Nat) (c : Intent) (detail : FeCaeDetRequest) : DbTx :=
  pairWrite (Tx.start s.db) s.nextAttempt (newAttempt now s.db.row m c detail) m
    { (s.db.row (.move m) : Move).toArcaStatus with arcaState := .processing }

section Checkpoint

variable {answers : Answers} {c : Intent} {line : Line} {header : FeCabReq}
  {detail : FeCaeDetRequest} {last : Nat} {r : Request}

theorem buildable_congr (h : Retains v v') (hm : (v' (.move m) : Move) = v (.move m))
    (hb : Buildable P now v m c line header detail) : Buildable P now v' m c line header detail := by
  refine ⟨(authorizeStart_congr h hm).trans hb.start, (auth_congr h _ _).trans hb.auth, hb.ptoVta,
    hb.cbteTipo, ?_⟩
  rw [hm, prepareRequest_congr h]
  exact hb.request

theorem retains_symm (h : Retains v v') : Retains v' v := by
  refine ⟨fun m => ?_, fun c => (h.company c).symm, fun k => (h.certificate k).symm,
    fun j => (h.journal j).symm⟩
  obtain ⟨st, hst⟩ := h.move m
  exact ⟨(v (.move m) : Move).toArcaStatus, by rw [hst]⟩

theorem buildable_targets (hb : Buildable P now v m c line header detail) :
    voucherOf v m = some ⟨line, c.number⟩ ∧
      documentOf v m = some ⟨(v (.move m) : Move).companyId, c.seq.issuerCuit, c.seq.posNumber,
        c.seq.documentTypeCode, c.number⟩ := by
  obtain ⟨hvoucher, hdocument⟩ := start_targets hb.start hb.auth
  rw [← hb.ptoVta, ← hb.cbteTipo] at hvoucher
  exact ⟨hvoucher, hdocument⟩

theorem authorizedDocument_pairWrite_ne {i j : Nat} {a : Attempt} {st : ArcaStatus} (h : j ≠ i) :
    authorizedDocument (pairWrite t i a m st).view j = authorizedDocument t.view j := by
  unfold authorizedDocument
  rw [pairWrite_attempt_ne h]

theorem authorizedDocument_pairWrite_self {i : Nat} {a : Attempt} {st : ArcaStatus} :
    authorizedDocument (pairWrite t i a m st).view i =
      if a.state = .authorized then some a.document else none := by
  unfold authorizedDocument
  rw [pairWrite_attempt_self, Option.bind_some]

theorem unique_pairWrite {i : Nat} {a : Attempt} {st : ArcaStatus}
    (hu : ∀ j < n, ∀ k < n, j ≠ i → k ≠ i → authorizedDocument t.view j ≠ none →
      authorizedDocument t.view j = authorizedDocument t.view k → j = k)
    (hfree : a.state = .authorized → ∀ j < n, j ≠ i → authorizedDocument t.view j ≠ some a.document) :
    uniqueAuthorized (pairWrite t i a m st).view n := by
  intro j hj k hk hne heq
  by_cases hji : j = i
  · subst hji
    by_contra hjk
    rw [authorizedDocument_pairWrite_self] at heq hne
    rw [authorizedDocument_pairWrite_ne (Ne.symm hjk)] at heq
    split at heq
    · next hst => exact hfree hst k hk (Ne.symm hjk) heq.symm
    · next hst => simp [hst] at hne
  · rw [authorizedDocument_pairWrite_ne hji] at heq hne
    by_cases hki : k = i
    · subst hki
      rw [authorizedDocument_pairWrite_self] at heq
      split at heq
      · next hst => exact absurd heq (hfree hst j hj hji)
      · exact absurd heq hne
    · rw [authorizedDocument_pairWrite_ne hki] at heq
      exact hu j hj k hk hji hki hne heq

theorem unique_checkpoint : uniqueAuthorized (checkpointTx now s m c detail).view (s.nextAttempt + 1) := by
  refine unique_pairWrite ?_ (by simp [newAttempt])
  intro j hj k hk hjn hkn
  exact s.unique j (by omega) k (by omega)

theorem toOption_eq_some {α : Type} {x : Except Exn α} {a : α} : x.toOption = some a ↔ x = .ok a := by
  cases x <;> simp [Except.toOption]

theorem checkSequence_iff {last number posNumber : Nat} :
    checkSequence last number posNumber = .ok () ↔ number = last + 1 := by
  unfold checkSequence
  simp only
  by_cases h : number = last + 1
  · simp only [h, iff_true]
    rfl
  · rw [if_neg h]
    refine iff_of_false (fun hok => ?_) h
    split at hok <;> exact absurd hok throw_ne_ok

theorem create_iff {i : Nat} {t' : DbTx} :
    authorizeCreate P now t m i c last = .ok (t', r) ↔ c.number = last + 1 ∧ ∃ header detail,
      (t.view (.move m) : Move).prepareRequest (P.today now) t.view c.seq.documentTypeCode
        c.seq.posNumber c.number = .ok (header, detail) ∧
      r = ⟨c.certificateId, c.seq.issuerCuit, header, detail⟩ ∧
      t' = pairWrite t i (newAttempt now t.view m c detail) m
        { (t.view (.move m) : Move).toArcaStatus with arcaState := .processing } := by
  constructor
  · intro h
    refine ⟨?_, create_spec h⟩
    unfold authorizeCreate at h
    simp only [bind_eq_ok] at h
    obtain ⟨⟨⟩, hcheck, -⟩ := h
    exact checkSequence_iff.mp hcheck
  · rintro ⟨hnumber, header, detail, hreq, rfl, rfl⟩
    have hmove : (t.write (.attempt i) (some (newAttempt now t.view m c detail))).view (.move m) =
        t.view (.move m) := write_view_ne _ _ (by simp)
    unfold authorizeCreate
    simp only [bind_eq_ok]
    refine ⟨(), checkSequence_iff.mpr hnumber, _, hreq, ?_⟩
    rw [writeArca, hmove, pairWrite]
    rfl

theorem authorizeUpTo_iff :
    authorizeUpTo P now answers s m = some (s', r) ↔ ∃ c line header detail last,
      Buildable P now s.db.row m c line header detail ∧
        feCompUltimoAutorizado line.ptoVta (answers.ultimoAutorizado line) = .ok last ∧
        c.number = last + 1 ∧ r = ⟨c.certificateId, c.seq.issuerCuit, header, detail⟩ ∧
        s.commit (checkpointTx now s m c detail) (s.nextAttempt + 1) = some s' := by
  unfold authorizeUpTo
  simp only [Option.bind_eq_bind, Option.bind_eq_some_iff, toOption_eq_some, Option.pure_def,
    Option.some.injEq, Prod.mk.injEq, Prod.exists, create_iff]
  constructor
  · rintro ⟨c, hstart, env, cuit, hauth, last, hlast, t, r, ⟨hnumber, header, detail, hreq, hr, rfl⟩,
      s', hcommit, rfl, rfl⟩
    exact ⟨c, ⟨env, cuit, c.seq.posNumber, c.seq.documentTypeCode⟩, header, detail, last,
      ⟨hstart, hauth, rfl, rfl, hreq⟩, hlast, hnumber, hr, hcommit⟩
  · rintro ⟨c, ⟨env, cuit, pos, type⟩, header, detail, last, hb, hlast, hnumber, hr, hcommit⟩
    obtain ⟨hstart, hauth, rfl, rfl, hreq⟩ := hb
    exact ⟨c, hstart, env, cuit, hauth, last, hlast, _, r, ⟨hnumber, header, detail, hreq, hr, rfl⟩,
      s', hcommit, rfl, rfl⟩

/-! ### The answer -/

theorem authorizeFrom_spec {i : Nat} {a : Attempt} (now m : Nat) (result : Except Exn CaeResult)
    (hview : s.db.row (.attempt i) = some a) :
    (authorizeFrom now s m i result).nextAttempt = s.nextAttempt ∧
      ((authorizeFrom now s m i result).db.row = s.db.row ∨ ∃ b st,
        (authorizeFrom now s m i result).db.row = (pairWrite (Tx.start s.db) i b m st).view ∧
          b.toEvidence = a.toEvidence ∧ Outcome b st) := by
  unfold authorizeFrom
  split
  · next t ht =>
    obtain ⟨b, st, rfl, hev, hout, -⟩ := outcome_spec hview ht
    cases hcommit : s.commit (pairWrite (Tx.start s.db) i b m st) s.nextAttempt with
    | none => exact ⟨rfl, .inl rfl⟩
    | some s' =>
      obtain ⟨hrow, hids⟩ := commit_row_view rfl hcommit
      exact ⟨hids, .inr ⟨b, st, hrow, hev, hout⟩⟩
  · exact ⟨rfl, .inl rfl⟩

theorem outcome_ok {i : Nat} {a : Attempt} {result : CaeResult} {due : Option Date} (now m : Nat)
    (hview : t.view (.attempt i) = some a) (hdue : dateField result.caeDueDate = .ok due) :
    ∃ b st, authorizeOutcome now 0 t m i (.ok result) = .ok (pairWrite t i b m st) ∧
      b.toEvidence = a.toEvidence ∧ st.arcaState = .authorized := by
  simp only [authorizeOutcome, hdue]
  exact ⟨_, _, congrArg Except.ok (writeArca_writeAttempt hview), rfl, rfl⟩

theorem authorizeFrom_approved {i : Nat} {a : Attempt} {result : CaeResult} {due : Option Date}
    (hview : s.db.row (.attempt i) = some a) (hdue : dateField result.caeDueDate = .ok due)
    (hfree : ∀ j < s.nextAttempt, j ≠ i → authorizedDocument s.db.row j ≠ some a.document) :
    ((authorizeFrom now s m i (.ok result)).db.row (.move m) : Move).arcaState = .authorized := by
  obtain ⟨b, st, ht, hev, hst⟩ := outcome_ok (t := Tx.start s.db) now m hview hdue
  have hunique : uniqueAuthorized (pairWrite (Tx.start s.db) i b m st).view s.nextAttempt := by
    refine unique_pairWrite (fun j hj k hk _ _ => s.unique j hj k hk) fun _ j hj hji => ?_
    rw [show b.document = a.document from congrArg Evidence.document hev]
    exact hfree j hj hji
  obtain ⟨s', hs'⟩ := Option.isSome_iff_exists.mp ((commit_isSome rfl).mpr hunique)
  simp only [authorizeFrom, ht, hs', Option.getD_some, (commit_row_view rfl hs').1,
    pairWrite_move_self, hst]

theorem authorizeFrom_free {i : Nat} {a : Attempt} {result : Except Exn CaeResult}
    (hview : s.db.row (.attempt i) = some a) (hi : i < s.nextAttempt)
    (hbefore : (s.db.row (.move m) : Move).arcaState ≠ .authorized)
    (h : ((authorizeFrom now s m i result).db.row (.move m) : Move).arcaState = .authorized) :
    ∀ j < s.nextAttempt, j ≠ i → authorizedDocument s.db.row j ≠ some a.document := by
  obtain ⟨hids, hrow | ⟨b, st, hrow, hev, hout⟩⟩ := authorizeFrom_spec now m result hview
  · rw [hrow] at h
    exact absurd h hbefore
  · intro j hj hji hdoc
    have hb : b.state = .authorized := by
      rw [hrow, pairWrite_move_self] at h
      cases hout with
      | authorized hb => exact hb
      | uncertain _ hst => simp [hst] at h
      | closed _ hst => rcases hst with hst | hst <;> simp [hst] at h
    have hunique := (authorizeFrom now s m i result).unique
    rw [hids, hrow] at hunique
    have hself : authorizedDocument (pairWrite (Tx.start s.db) i b m st).view i = some a.document := by
      rw [authorizedDocument_pairWrite_self, if_pos hb]
      exact congrArg some (congrArg Evidence.document hev)
    refine hji (hunique j hj i hi ?_ ?_)
    · rw [authorizedDocument_pairWrite_ne hji, start_view, hdoc]
      simp
    · rw [hself, authorizedDocument_pairWrite_ne hji]
      exact hdoc

/-! ### The whole request -/

/-- What a request may have changed, and what it asked for. -/
structure Requested (s : Ledger) (m : Nat) (out : Ledger × Option Coordinates) : Prop where
  keeps : Retains s.db.row out.1.db.row
  others : ∀ m' ≠ m, (out.1.db.row (.move m') : Move) = s.db.row (.move m')
  attempts : ∀ i < s.nextAttempt, out.1.db.row (.attempt i) = s.db.row (.attempt i)
  ids : s.nextAttempt ≤ out.1.nextAttempt
  added : ∀ i, s.nextAttempt ≤ i → i < out.1.nextAttempt →
    ∀ d, authorizedDocument out.1.db.row i = some d → documentOf s.db.row m = some d
  sent : ∀ c ∈ out.2, voucherOf s.db.row m = some c

theorem newAttempt_document (hb : Buildable P now v m c line header detail) :
    documentOf v m = some (newAttempt now v m c detail).document :=
  (buildable_targets hb).2

theorem checkpoint_spec
    (hcommit : s.commit (checkpointTx now s m c detail) (s.nextAttempt + 1) = some s') :
    Retains s.db.row s'.db.row ∧ s'.nextAttempt = s.nextAttempt + 1 ∧
      s'.db.row (.attempt s.nextAttempt) = some (newAttempt now s.db.row m c detail) ∧
      (s'.db.row (.move m) : Move).arcaState = .processing ∧
      (∀ m' ≠ m, (s'.db.row (.move m') : Move) = s.db.row (.move m')) ∧
      (∀ i ≠ s.nextAttempt, s'.db.row (.attempt i) = s.db.row (.attempt i)) := by
  obtain ⟨hrow, hids⟩ := commit_row_view rfl hcommit
  rw [hrow, checkpointTx]
  refine ⟨retains_pairWrite (t := Tx.start s.db), hids, pairWrite_attempt_self .., ?_,
    fun m' hm => pairWrite_move_ne hm, fun i hi => pairWrite_attempt_ne hi⟩
  rw [pairWrite_move_self]

theorem requestCae_cases (P : Platform) (now : Nat) (v : View) (answers : Answers) (s : Ledger)
    (m : Nat) :
    requestCae P now v answers s m = (s, none) ∨ ∃ c line header detail last s',
      Buildable P now s.db.row m c line header detail ∧
        feCompUltimoAutorizado line.ptoVta (answers.ultimoAutorizado line) = .ok last ∧
        c.number = last + 1 ∧
        s.commit (checkpointTx now s m c detail) (s.nextAttempt + 1) = some s' ∧
        requestCae P now v answers s m = (authorizeFrom now s' m s.nextAttempt
          (feCaeSolicitar (answers.caeSolicitar ⟨line, c.number⟩)), some ⟨line, c.number⟩) := by
  unfold requestCae
  split
  · next s' r _ hupTo =>
    obtain ⟨c, line, header, detail, last, hb, hlast, hnumber, rfl, hcommit⟩ :=
      authorizeUpTo_iff.mp hupTo
    obtain ⟨hkeeps, -⟩ := checkpoint_spec hcommit
    obtain ⟨rfl, hdesde, -, -⟩ := prepareRequest_spec hb.request
    right
    refine ⟨c, line, _, detail, last, s', hb, hlast, hnumber, hcommit, ?_⟩
    simp only [auth_congr hkeeps, hb.auth, hdesde, ← hb.ptoVta, ← hb.cbteTipo]
  · exact .inl rfl

theorem requestCae_spec (P : Platform) (now : Nat) (v : View) (answers : Answers) (s : Ledger)
    (m : Nat) : Requested s m (requestCae P now v answers s m) := by
  rcases requestCae_cases P now v answers s m with
    heq | ⟨c, line, header, detail, last, s', hb, -, -, hcommit, heq⟩
  · rw [heq]
    exact ⟨retains_refl _, fun _ _ => rfl, fun _ _ => rfl, Nat.le_refl _,
      fun i hle hlt => absurd hlt (Nat.not_lt.mpr hle), by simp⟩
  · rw [heq]
    obtain ⟨hkeeps, hids, hattempt, -, hmoves, hattempts⟩ := checkpoint_spec hcommit
    have hsent : ∀ c' ∈ some (⟨line, c.number⟩ : Coordinates), voucherOf s.db.row m = some c' := by
      intro c' hc'
      obtain rfl := Option.mem_some_iff.mp hc'
      exact (buildable_targets hb).1
    obtain ⟨hids', hrow | ⟨b, st, hrow, hev, hout⟩⟩ := authorizeFrom_spec now m
      (feCaeSolicitar (answers.caeSolicitar ⟨line, c.number⟩)) hattempt
    · refine ⟨?_, ?_, ?_, ?_, ?_, hsent⟩ <;> simp only [hrow, hids', hids]
      · exact hkeeps
      · exact hmoves
      · exact fun i hi => hattempts i (by omega)
      · omega
      · intro i hle hlt d hd
        obtain rfl : i = s.nextAttempt := by omega
        simp [authorizedDocument, hattempt, newAttempt] at hd
    · refine ⟨?_, ?_, ?_, ?_, ?_, hsent⟩ <;> simp only [hrow, hids', hids]
      · exact retains_trans hkeeps (retains_pairWrite (t := Tx.start s'.db))
      · exact fun m' hm => (pairWrite_move_ne hm).trans (hmoves m' hm)
      · exact fun i hi => (pairWrite_attempt_ne (by omega)).trans (hattempts i (by omega))
      · omega
      · intro i hle hlt d hd
        obtain rfl : i = s.nextAttempt := by omega
        rw [authorizedDocument_pairWrite_self] at hd
        split at hd
        · rw [newAttempt_document hb, ← hd]
          exact congrArg some (congrArg Evidence.document hev).symm
        · cases hd

theorem requestCae_approved {key : Nat} {answers : Answers} {result : CaeResult} {due : Option Date}
    (hkey : Sys.requestKey P v m = .ok key) (hb : Buildable P now s.db.row m c line header detail)
    (hlast : feCompUltimoAutorizado line.ptoVta (answers.ultimoAutorizado line) = .ok last)
    (hnumber : c.number = last + 1)
    (hfree : ∀ i < s.nextAttempt, authorizedDocument s.db.row i ≠ documentOf s.db.row m)
    (hresult : feCaeSolicitar (answers.caeSolicitar ⟨line, c.number⟩) = .ok result)
    (hdue : dateField result.caeDueDate = .ok due) :
    (requestCae P now v answers s m).2 = some ⟨line, c.number⟩ ∧
      ((requestCae P now v answers s m).1.db.row (.move m) : Move).arcaState = .authorized := by
  obtain ⟨s', hcommit⟩ := Option.isSome_iff_exists.mp
    ((commit_isSome (t := checkpointTx now s m c detail) rfl).mpr unique_checkpoint)
  have hupTo := authorizeUpTo_iff.mpr ⟨c, line, header, detail, last, hb, hlast, hnumber, rfl, hcommit⟩
  obtain ⟨hkeeps, hids, hattempt, -, -, hattempts⟩ := checkpoint_spec hcommit
  obtain ⟨rfl, hdesde, -, -⟩ := prepareRequest_spec hb.request
  unfold requestCae
  simp only [hkey, hupTo, auth_congr hkeeps, hb.auth, hdesde, ← hb.ptoVta, ← hb.cbteTipo, hresult,
    true_and]
  refine authorizeFrom_approved hattempt hdue fun j hj hji hdoc => ?_
  refine hfree j (by omega) ?_
  rw [newAttempt_document hb, ← hdoc]
  unfold authorizedDocument
  rw [hattempts j hji]

theorem requestCae_authorized {answers : Answers}
    (hbefore : (s.db.row (.move m) : Move).arcaState ≠ .authorized)
    (h : ((requestCae P now v answers s m).1.db.row (.move m) : Move).arcaState = .authorized) :
    ∃ c line header detail last, Buildable P now s.db.row m c line header detail ∧
      feCompUltimoAutorizado line.ptoVta (answers.ultimoAutorizado line) = .ok last ∧
      c.number = last + 1 ∧ ∀ i < s.nextAttempt, authorizedDocument s.db.row i ≠ documentOf s.db.row m := by
  rcases requestCae_cases P now v answers s m with
    heq | ⟨c, line, header, detail, last, s', hb, hlast, hnumber, hcommit, heq⟩
  · rw [heq] at h
    exact absurd h hbefore
  · rw [heq] at h
    obtain ⟨-, hids, hattempt, hprocessing, -, hattempts⟩ := checkpoint_spec hcommit
    refine ⟨c, line, header, detail, last, hb, hlast, hnumber, fun i hi hdoc => ?_⟩
    refine authorizeFrom_free hattempt (by omega) (by simp [hprocessing]) h i (by omega) (by omega) ?_
    rw [newAttempt_document hb] at hdoc
    rw [← hdoc]
    unfold authorizedDocument
    rw [hattempts i (by omega)]

end Checkpoint

end ArcaEdi
