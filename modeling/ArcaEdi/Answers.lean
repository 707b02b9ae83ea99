import ArcaEdi.Printed

/-!
# What an answer decides

`_parse_cae_response` over every answer of FECAESolicitar, and `_reconcile` over
every answer of FECompConsultar.
-/

namespace ArcaEdi

open Snapshot Raise

/-! ## FECAESolicitar -/

def firstDetail (response : Option CaeResponse) : Option FeCaeDetResponse :=
  response.bind fun r => r.feDetResp.entries.head?

/-- The first detail reports one of the codes, and a CAE. -/
def Approves (codes : List String) (response : Option CaeResponse) : Prop :=
  ∃ det ∈ firstDetail response, (∃ code ∈ codes, det.resultado = some code) ∧ det.cae.getD "" ≠ ""

/-- Result R, or errors with no detail. -/
def Refuses : Option CaeResponse → Prop
  | none => False
  | some r =>
    match r.feDetResp.entries with
    | [] => collectErrors r.errors ≠ []
    | det :: _ => det.resultado = some "R"

/-- What each outcome of `_parse_cae_response` says of the answer, with the codes
that are read as an approval. -/
structure Decides (codes : List String) (response : Option CaeResponse) : Prop where
  success : ∀ result, parseCaeResponse response = .ok result → Approves codes response
  refusal : ∀ e, parseCaeResponse response = .error (.arca e) → e.kind = .businessError →
    Refuses response
  unknown : ¬ Approves codes response → ¬ Refuses response →
    ∃ e, parseCaeResponse response = .error (.arca e) ∧ e.kind = .uncertain
  nothingElse : OnlyRaises (fun x => ∃ e, x = .arca e ∧ (e.kind = .businessError ∨ e.kind = .uncertain))
    (parseCaeResponse response)

/-- The outcomes of `_parse_cae_response`, each with all that leads to it. -/
inductive Parses (response : Option CaeResponse) : Except Exn CaeResult → Prop
  | success {det : FeCaeDetResponse} {result : CaeResult} (hd : firstDetail response = some det)
      (hcode : det.resultado = some "A" ∧ det.cae.getD "" ≠ "" ∨ det.resultado = some "P")
      (hcae : result.cae = det.cae) : Parses response (.ok result)
  | refusal {e : ArcaError} (hr : Refuses response) (he : e.kind = .businessError) :
      Parses response (.error (.arca e))
  | unknown {e : ArcaError} (hr : ¬ Refuses response)
      (hd : ∀ det ∈ firstDetail response, det.resultado ≠ some "P" ∧
        (det.resultado = some "A" → det.cae.getD "" = ""))
      (he : e.kind = .uncertain) : Parses response (.error (.arca e))

theorem raiseBusinessError_spec {α : Type} (errors : List Remark) :
    ∃ e : ArcaError, e.kind = .businessError ∧
      (raiseBusinessError errors : Except Exn α) = .error (.arca e) := by
  unfold raiseBusinessError
  split <;> exact ⟨_, rfl, rfl⟩

theorem noCae_iff {cae : Option String} : cae = none ∨ cae = some "" ↔ cae.getD "" = "" := by
  cases cae <;> simp

theorem parses_detail {r : CaeResponse} {det : FeCaeDetResponse} {rest : List FeCaeDetResponse}
    (hdet : r.feDetResp.entries = det :: rest) : Parses (some r) (parseCaeResponse (some r)) := by
  have hfirst : firstDetail (some r) = some det := by simp [firstDetail, hdet]
  have hrefuses : Refuses (some r) ↔ det.resultado = some "R" := by simp [Refuses, hdet]
  have hunknown : det.resultado ≠ some "R" → det.resultado ≠ some "P" →
      (det.resultado = some "A" → det.cae.getD "" = "") → ∀ e : ArcaError, e.kind = .uncertain →
      Parses (some r) (.error (.arca e)) := by
    intro hR hP hA e he
    refine .unknown (by rwa [hrefuses]) ?_ he
    simp only [hfirst, Option.mem_some_iff, forall_eq']
    exact ⟨hP, hA⟩
  simp only [parseCaeResponse, hdet]
  split
  · next hR => exact .refusal (hrefuses.mpr hR) rfl
  · next hR =>
    split
    · next hA =>
      refine hunknown hR (by simp [hA.1]) (fun _ => noCae_iff.mp hA.2) _ rfl
    · next hA =>
      rw [noCae_iff] at hA
      split
      · next hcode =>
        refine .success hfirst ?_ rfl
        rcases hcode with hcode | hcode
        · exact .inl ⟨hcode, fun hnone => hA ⟨hcode, hnone⟩⟩
        · exact .inr hcode
      · next hcode =>
        obtain ⟨hnotA, hnotP⟩ := not_or.mp hcode
        exact hunknown hR hnotP (fun hyes => absurd hyes hnotA) _ rfl

theorem parses (response : Option CaeResponse) : Parses response (parseCaeResponse response) := by
  cases response with
  | none => exact .unknown id nofun rfl
  | some r =>
    cases hdet : r.feDetResp.entries with
    | cons det rest => exact parses_detail hdet
    | nil =>
      have hfirst : firstDetail (some r) = none := by simp [firstDetail, hdet]
      have hrefuses : Refuses (some r) ↔ collectErrors r.errors ≠ [] := by simp [Refuses, hdet]
      simp only [parseCaeResponse, hdet]
      split
      · next hnone =>
        refine .unknown (by rw [hrefuses, not_not]; exact hnone) ?_ rfl
        simp [hfirst]
      · next hsome =>
        obtain ⟨e, he, hraise⟩ := raiseBusinessError_spec (α := CaeResult) (collectErrors r.errors)
        rw [hraise]
        exact .refusal (hrefuses.mpr hsome) he

/-- With P not an approval, the table holds of every answer whose first detail is
not P. With P an approval too, it fails only of a P without a CAE. -/
theorem cae_response_decided (response : Option CaeResponse) :
    (Decides ["A"] response ↔ ∀ det ∈ firstDetail response, det.resultado ≠ some "P") ∧
    (Decides ["A", "P"] response ↔
      ∀ det ∈ firstDetail response, det.resultado = some "P" → det.cae.getD "" ≠ "") := by
  have hparses := parses response
  generalize hp : parseCaeResponse response = outcome at hparses
  cases hparses with
  | @success det result hd hcode hcae =>
    have hsound : ∀ codes, Approves codes response → Decides codes response := by
      refine fun codes happ => ⟨fun _ _ => happ, ?_, fun hnot => absurd happ hnot, ?_⟩
      · simp [hp]
      · rw [hp]
        exact onlyRaises_ok
    simp only [hd, Option.mem_some_iff, forall_eq']
    constructor
    · refine ⟨fun h hP => ?_, fun hP => hsound _ ?_⟩
      · obtain ⟨det', hdet', ⟨code, hin, hresult⟩, -⟩ := h.success result hp
        rw [hd, Option.mem_some_iff] at hdet'
        subst hdet'
        rw [hP] at hresult
        simp_all
      · obtain ⟨hA, hne⟩ := hcode.resolve_right hP
        exact ⟨det, hd, ⟨"A", by simp, hA⟩, hne⟩
    · refine ⟨fun h hP => ?_, fun hP => hsound _ ?_⟩
      · obtain ⟨det', hdet', -, hne⟩ := h.success result hp
        rw [hd, Option.mem_some_iff] at hdet'
        exact hdet' ▸ hne
      · rcases hcode with ⟨hA, hne⟩ | hcode
        · exact ⟨det, hd, ⟨"A", by simp, hA⟩, hne⟩
        · exact ⟨det, hd, ⟨"P", by simp, hcode⟩, hP hcode⟩
  | @refusal e hr he =>
    have hdecides : ∀ codes, Decides codes response := by
      refine fun codes => ⟨by simp [hp], fun _ _ _ => hr, fun _ hnot => absurd hr hnot, ?_⟩
      rw [hp]
      exact onlyRaises_error.mpr ⟨e, rfl, .inl he⟩
    have hnotP : ∀ det ∈ firstDetail response, det.resultado ≠ some "P" := by
      intro det hdet hP
      obtain ⟨r, rfl, hhead⟩ := Option.bind_eq_some_iff.mp hdet
      obtain ⟨rest, hentries⟩ := List.head?_eq_some_iff.mp hhead
      simp [Refuses, hentries, hP] at hr
    exact ⟨iff_of_true (hdecides _) hnotP,
      iff_of_true (hdecides _) fun det hdet hP => absurd hP (hnotP det hdet)⟩
  | @unknown e hr hd he =>
    have hdecides : ∀ codes, Decides codes response := by
      refine fun codes => ⟨by simp [hp], ?_, fun _ _ => ⟨e, hp, he⟩, ?_⟩
      · intro e' he' hkind
        rw [hp, Except.error.injEq, Exn.arca.injEq] at he'
        rw [← he', he] at hkind
        cases hkind
      · rw [hp]
        exact onlyRaises_error.mpr ⟨e, rfl, .inr he⟩
    exact ⟨iff_of_true (hdecides _) fun det hdet => (hd det hdet).1,
      iff_of_true (hdecides _) fun det hdet hP => absurd hP (hd det hdet).1⟩

def partialApproval : CaeResponse := ⟨none, some (some [⟨some "P", none, none, none, "P"⟩])⟩

/-- It is a success under either reading, and leaves the invoice authorized with no CAE. -/
theorem partial_approval_succeeds :
    ¬ Decides ["A"] (some partialApproval) ∧ ¬ Decides ["A", "P"] (some partialApproval) ∧
      ((authorizeOutcome 0 0 (Tx.start ⟨Office.rows, fun _ => 0⟩) 0 0
        (parseCaeResponse (some partialApproval))).toOption.any fun t =>
          (t.view (.move 0) : Move).arcaState == .authorized && (t.view (.move 0) : Move).cae == none) =
        true := by
  have hcae : ∀ codes, ¬ Decides codes (some partialApproval) := by
    intro codes h
    obtain ⟨det, hdet, -, hne⟩ := h.success _ rfl
    obtain rfl := Option.mem_some_iff.mp hdet
    exact hne rfl
  exact ⟨hcae _, hcae _, by decide +kernel⟩

/-! ## FECompConsultar -/

/-- `_reconcile` on one attempt, with what ARCA answers. -/
def reconcile (now : Nat) (t : DbTx) (i : Nat) (reply : SoapReply (Option ConsultResponse)) :
    Except Exn DbTx :=
  match reconcileCertificate t.view i with
  | some (a, _) => do
    let found ← feCompConsultar reply
    reconcileFound now t i a.moveId found
  | none => .ok t

/-- What it leaves behind. Where it raises, it wrote nothing. -/
def reconciled (now : Nat) (t : DbTx) (i : Nat) (reply : SoapReply (Option ConsultResponse)) : View :=
  match reconcile now t i reply with
  | .ok t' => t'.view
  | .error _ => t.view

theorem sys_reconcile_eq {W : Type} {s : Sys W} {t : DbTx} {i : Nat}
    {reply : SoapReply (Option ConsultResponse)} {result : Except Exn DbTx}
    (h : s.reconcile t i reply = some result) : result = reconcile s.clock t i reply := by
  unfold Sys.reconcile at h
  split at h
  · next a k hcert =>
    split at h
    · split at h <;> cases h
      simp only [reconcile, hcert]
      rfl
    · cases h
  · cases h

/-- It lists error 602, and no other error. -/
def SaysNone : SoapReply (Option ConsultResponse) → Prop
  | .response (some r) => collectErrors r.errors ≠ [] ∧
    ∀ error ∈ collectErrors r.errors, PyText.strip error.code = errorNoDataFound
  | _ => False

def CarriesVoucher : SoapReply (Option ConsultResponse) → Prop
  | .response (some r) => r.resultGet ≠ none
  | _ => False

/-- It is a response, what it lists beside error 602 is nothing, and where it
lists no error it carries a voucher. -/
def Explicit : SoapReply (Option ConsultResponse) → Prop
  | .response none => False
  | .response (some r) =>
    ((∃ error ∈ collectErrors r.errors, PyText.strip error.code = errorNoDataFound) →
      ∀ error ∈ collectErrors r.errors, PyText.strip error.code = errorNoDataFound) ∧
    (collectErrors r.errors = [] → r.resultGet ≠ none)
  | _ => True

/-- An attempt is aborted, and its invoice goes back to pending, only when the
answer says that the voucher does not exist. -/
structure ClosesUnused (now : Nat) (t : DbTx) (i : Nat) (a : Attempt)
    (reply : SoapReply (Option ConsultResponse)) : Prop where
  aborted : ∀ b : Attempt, reconciled now t i reply (.attempt i) = some b → b.state = .aborted →
    SaysNone reply
  pending : ∀ m ∈ a.moveId, (t.view (.move m) : Move).arcaState ≠ .pending →
    (reconciled now t i reply (.move m) : Move).arcaState = .pending → SaysNone reply
  otherwise : ¬ CarriesVoucher reply → ¬ SaysNone reply → reconciled now t i reply = t.view

theorem feCompConsultar_response (r : Option ConsultResponse) :
    feCompConsultar (.response r) =
      let errors := collectErrors ((r.map (·.errors)).getD none)
      if errors.any fun error => PyText.strip error.code == errorNoDataFound then .ok none
      else if errors ≠ [] then raiseBusinessError errors
      else
        match r.bind (·.resultGet) with
        | none => .ok none
        | some found =>
          .ok (some ⟨found.codAutorizacion, parseArcaDate found.fchVto, found.resultado,
            found.impTotal, parseArcaDate found.cbteFch, found.docTipo, found.docNro, found.raw⟩) :=
  rfl

theorem consultar_none {reply : SoapReply (Option ConsultResponse)} :
    feCompConsultar reply = .ok none ↔ reply = .response none ∨ ∃ r, reply = .response (some r) ∧
      ((∃ error ∈ collectErrors r.errors, PyText.strip error.code = errorNoDataFound) ∨
        collectErrors r.errors = [] ∧ r.resultGet = none) := by
  cases reply with
  | fault | transportError | xmlSyntaxError | exception =>
    simp [feCompConsultar, call, raiseArca, bind, Except.bind]
  | response r =>
    cases r with
    | none => simp [feCompConsultar_response, collectErrors, Group.entries]
    | some r =>
      simp only [feCompConsultar_response, Option.map_some, Option.getD_some, Option.bind_some]
      by_cases hany : ∃ error ∈ collectErrors r.errors, PyText.strip error.code = errorNoDataFound
      · have hlisted : (collectErrors r.errors).any
            (fun error => PyText.strip error.code == errorNoDataFound) = true := by simpa using hany
        simp only [hlisted, ↓reduceIte]
        simp [hany]
      · have hlisted : (collectErrors r.errors).any
            (fun error => PyText.strip error.code == errorNoDataFound) = false := by simpa using hany
        simp only [hlisted]
        by_cases hnil : collectErrors r.errors = []
        · cases hget : r.resultGet <;> simp [hnil, hget]
        · obtain ⟨e, -, hraise⟩ := raiseBusinessError_spec (α := Option Found) (collectErrors r.errors)
          simp [hnil, hraise, hany]

section Consult

variable {now i k : Nat} {t : DbTx} {a : Attempt} {reply : SoapReply (Option ConsultResponse)}

theorem explicit_of_saysNone (h : SaysNone reply) : Explicit reply := by
  match reply, h with
  | .response (some r), ⟨hne, hall⟩ => exact ⟨fun _ => hall, fun hnil => absurd hnil hne⟩

theorem consultar_none_iff : feCompConsultar reply = .ok none ↔ SaysNone reply ∨ ¬ Explicit reply := by
  rw [consultar_none]
  constructor
  · rintro (rfl | ⟨r, rfl, hlisted | ⟨hnil, hget⟩⟩)
    · exact .inr id
    · by_cases hall : ∀ error ∈ collectErrors r.errors, PyText.strip error.code = errorNoDataFound
      · obtain ⟨error, herror, -⟩ := hlisted
        exact .inl ⟨List.ne_nil_of_mem herror, hall⟩
      · exact .inr fun h => hall (h.1 hlisted)
    · exact .inr fun h => h.2 hnil hget
  · intro h
    match reply, h with
    | .response none, _ => exact .inl rfl
    | .response (some r), .inl ⟨hne, hall⟩ =>
      obtain ⟨error, herror⟩ := List.exists_mem_of_ne_nil _ hne
      exact .inr ⟨r, rfl, .inl ⟨error, herror, hall error herror⟩⟩
    | .response (some r), .inr h =>
      refine .inr ⟨r, rfl, ?_⟩
      rcases not_and_or.mp h with h | h
      · exact .inl (Classical.not_imp.mp h).1
      · exact .inr ⟨(Classical.not_imp.mp h).1, not_not.mp (Classical.not_imp.mp h).2⟩
    | .fault _ _, .inl h | .transportError _, .inl h | .xmlSyntaxError, .inl h | .exception _, .inl h =>
      exact h.elim
    | .fault _ _, .inr h | .transportError _, .inr h | .xmlSyntaxError, .inr h | .exception _, .inr h =>
      exact absurd trivial h

theorem reconcileFound_error {moveId : Option Nat} {found : Found} {e : Exn}
    (h : dateField found.caeDueDate = .error e) :
    reconcileFound now t i moveId (some found) = .error e := by
  simp [reconcileFound, h, bind, Except.bind]

/-- What each answer leaves of the attempt and of its invoice. -/
inductive Leaves (t : DbTx) (i : Nat) (a : Attempt) (reply : SoapReply (Option ConsultResponse))
    (v : View) : Prop
  | unread {e : Exn} (h : feCompConsultar reply = .error e) (hv : v = t.view)
  | aborted {b : Attempt} (h : feCompConsultar reply = .ok none) (hv : v (.attempt i) = some b)
      (hb : b.state = .aborted) (hm : ∀ m ∈ a.moveId, (v (.move m) : Move).arcaState = .pending)
  | undated {found : Found} (h : feCompConsultar reply = .ok (some found))
      (hdue : (dateField found.caeDueDate).isOk = false) (hv : v = t.view)
  | authorized {b : Attempt} {found : Found} (h : feCompConsultar reply = .ok (some found))
      (hdue : (dateField found.caeDueDate).isOk = true) (hv : v (.attempt i) = some b)
      (hb : b.state = .authorized)
      (hm : ∀ m ∈ a.moveId, (v (.move m) : Move).arcaState = .authorized)

theorem reconciled_leaves (now : Nat) (reply : SoapReply (Option ConsultResponse))
    (hcert : reconcileCertificate t.view i = some (a, k)) :
    Leaves t i a reply (reconciled now t i reply) := by
  obtain ⟨hview, -, -⟩ := reconcileCertificate_spec hcert
  cases hanswer : feCompConsultar reply with
  | error e =>
    refine .unread hanswer ?_
    simp [reconciled, reconcile, hcert, hanswer, bind, Except.bind]
  | ok answer =>
    have heq : reconcile now t i reply = reconcileFound now t i a.moveId answer := by
      simp [reconcile, hcert, hanswer, bind, Except.bind]
    rw [reconciled, heq]
    cases answer with
    | none =>
      cases hmove : a.moveId with
      | none =>
        exact .aborted hanswer ((write_view_self ..).trans (congrArg (Option.map _) hview)) rfl
          (by simp [hmove])
      | some m =>
        simp only [reconcileFound, applyNotFound, writeArca_writeAttempt hview]
        refine .aborted hanswer (pairWrite_attempt_self ..) rfl ?_
        simp only [hmove, Option.mem_some_iff, forall_eq', pairWrite_move_self]
    | some found =>
      cases hdue : dateField found.caeDueDate with
      | error e =>
        rw [reconcileFound_error hdue]
        exact .undated hanswer (by rw [hdue]; rfl) rfl
      | ok due =>
        cases hmove : a.moveId with
        | none =>
          simp only [reconcileFound, hdue]
          exact .authorized hanswer (by rw [hdue]; rfl)
            ((write_view_self ..).trans (congrArg (Option.map _) hview)) rfl (by simp [hmove])
        | some m =>
          obtain ⟨st, hst, hwrite⟩ : ∃ st : ArcaStatus, st.arcaState = .authorized ∧
              reconcileFound now t i (some m) (some found) = .ok (pairWrite t i
                (a.markAuthorized now found.cae due (some found.raw) 0) m st) := by
            simp only [reconcileFound, hdue, applyAuthorized]
            exact ⟨_, rfl, congrArg Except.ok (writeArca_writeAttempt hview)⟩
          rw [hwrite]
          refine .authorized hanswer (by rw [hdue]; rfl) (pairWrite_attempt_self ..) rfl ?_
          simp only [hmove, Option.mem_some_iff, forall_eq', pairWrite_move_self, hst]

theorem reconciled_none (now : Nat) (hcert : reconcileCertificate t.view i = some (a, k))
    (h : feCompConsultar reply = .ok none) :
    ∃ b : Attempt, reconciled now t i reply (.attempt i) = some b ∧ b.state = .aborted := by
  cases reconciled_leaves now reply hcert with
  | aborted _ hb hst => exact ⟨_, hb, hst⟩
  | unread hread | undated hread | authorized hread =>
    rw [h] at hread
    cases hread

theorem reconciled_found {found : Found} (now : Nat)
    (hcert : reconcileCertificate t.view i = some (a, k))
    (h : feCompConsultar reply = .ok (some found)) :
    (dateField found.caeDueDate).isOk = true ∧
        (∃ b : Attempt, reconciled now t i reply (.attempt i) = some b ∧ b.state = .authorized) ∨
      (dateField found.caeDueDate).isOk = false ∧ reconciled now t i reply = t.view := by
  cases reconciled_leaves now reply hcert with
  | authorized hread hdue hb hst =>
    rw [h] at hread
    cases hread
    exact .inl ⟨hdue, _, hb, hst⟩
  | undated hread hdue hv =>
    rw [h] at hread
    cases hread
    exact .inr ⟨hdue, hv⟩
  | unread hread | aborted hread =>
    rw [h] at hread
    cases hread

/-- Where ARCA is asked about an attempt, it is closed only by an answer that says
that the voucher does not exist, exactly when the answer is explicit. -/
theorem consult_closes_unused (hcert : reconcileCertificate t.view i = some (a, k))
    (reply : SoapReply (Option ConsultResponse)) :
    ClosesUnused now t i a reply ↔ Explicit reply := by
  obtain ⟨hview, hopen, -⟩ := reconcileCertificate_spec hcert
  have hunchanged : reconciled now t i reply = t.view → ClosesUnused now t i a reply := by
    refine fun hv => ⟨fun b hb hst => ?_, fun m _ hm hp => ?_, fun _ _ => hv⟩
    · rw [hv, hview] at hb
      cases hb
      simp [hst, AttemptState.isOpen] at hopen
    · rw [hv] at hp
      exact absurd hp hm
  constructor
  · intro h
    by_contra hnot
    obtain ⟨b, hb, hst⟩ := reconciled_none now hcert (consultar_none_iff.mpr (.inr hnot))
    exact hnot (explicit_of_saysNone (h.aborted b hb hst))
  · intro h
    cases reconciled_leaves now reply hcert with
    | unread _ hv => exact hunchanged hv
    | undated _ _ hv => exact hunchanged hv
    | aborted hread _ _ _ =>
      have hnone := (consultar_none_iff.mp hread).resolve_right (not_not.mpr h)
      exact ⟨fun _ _ _ => hnone, fun _ _ _ _ => hnone, fun _ hnot => absurd hnone hnot⟩
    | @authorized b found hread _ hb hst hm =>
      obtain ⟨r, g, rfl, hget, -⟩ := consultar_found hread
      refine ⟨fun c hc habort => ?_, fun m hmem _ hp => ?_, fun hnot => ?_⟩
      · rw [hb] at hc
        cases hc
        rw [hst] at habort
        cases habort
      · rw [hm m hmem] at hp
        cases hp
      · refine absurd ?_ hnot
        simp [CarriesVoucher, hget]

/-! ### The voucher that is found -/

/-- It is approved, it has a CAE, and it has the total and the receptor of the
request that the attempt records. -/
def Found.Fulfils (found : Found) (e : Evidence) : Prop :=
  found.result = some "A" ∧ found.cae.getD "" ≠ "" ∧
    found.total = some e.requestPayload.amounts.impTotal ∧
    found.docType = some e.requestPayload.docTipo ∧ found.docNumber = some e.requestPayload.docNro

instance (found : Found) (e : Evidence) : Decidable (found.Fulfils e) :=
  inferInstanceAs (Decidable (_ ∧ _ ∧ _ ∧ _ ∧ _))

/-- Only the voucher of the request authorizes the attempt and its invoice. -/
structure AdoptsOwn (now : Nat) (t : DbTx) (i : Nat) (a : Attempt)
    (reply : SoapReply (Option ConsultResponse)) (found : Found) : Prop where
  attempt : ∀ b : Attempt, reconciled now t i reply (.attempt i) = some b → b.state = .authorized →
    found.Fulfils a.toEvidence
  invoice : ∀ m ∈ a.moveId, (t.view (.move m) : Move).arcaState ≠ .authorized →
    (reconciled now t i reply (.move m) : Move).arcaState = .authorized →
      found.Fulfils a.toEvidence
  otherwise : ¬ found.Fulfils a.toEvidence →
    (∃ b : Attempt, reconciled now t i reply (.attempt i) = some b ∧ b.state.isOpen = true) ∧
      ∀ m, (reconciled now t i reply (.move m) : Move).cae = (t.view (.move m) : Move).cae

/-- The voucher that is found is adopted as it should be, exactly when it is that of
the request, or has a due date that is no day of the calendar. -/
theorem voucher_adopted {found : Found} (hcert : reconcileCertificate t.view i = some (a, k))
    (hfound : feCompConsultar reply = .ok (some found)) :
    AdoptsOwn now t i a reply found ↔
      found.Fulfils a.toEvidence ∨ (dateField found.caeDueDate).isOk = false := by
  obtain ⟨hview, hopen, -⟩ := reconcileCertificate_spec hcert
  rcases reconciled_found now hcert hfound with ⟨hdue, b, hb, hst⟩ | ⟨hdue, hv⟩
  · constructor
    · exact fun h => .inl (h.attempt b hb hst)
    · rintro (hfulfils | hundated)
      · exact ⟨fun _ _ _ => hfulfils, fun _ _ _ _ => hfulfils, fun hnot => absurd hfulfils hnot⟩
      · rw [hdue] at hundated
        cases hundated
  · refine iff_of_true ⟨fun b hb hst => ?_, fun m _ hm hst => ?_, fun _ => ⟨⟨a, ?_, hopen⟩, fun m => ?_⟩⟩
      (.inr hdue)
    · rw [hv, hview] at hb
      cases hb
      simp [hst, AttemptState.isOpen] at hopen
    · rw [hv] at hst
      exact absurd hst hm
    · rw [hv, hview]
    · rw [hv]

end Consult

/-! ## The office, with an answer that was lost -/

namespace Office

def detail : FeCaeDetRequest where
  concepto := 1
  docTipo := 99
  docNro := 0
  cbteDesde := 1
  cbteHasta := 1
  cbteFch := "20260115"
  amounts := ⟨0, 100, 0, 21, 0, 121⟩
  monId := "PES"
  monCotiz := 1
  condicionIvaReceptorId := 5
  serviceDates := none
  iva := [⟨5, 100, 21⟩]
  cbtesAsoc := []

/-- The request of invoice 0, whose answer never came. -/
def unanswered : Attempt where
  moveId := some 0
  companyId := 0
  certificateId := some 0
  environment := .testing
  issuerCuit := "20123456786"
  posNumber := 1
  documentTypeCode := 6
  documentNumber := 1
  sentAt := 0
  requestPayload := detail
  state := .uncertain

def waitingRows : View
  | .attempt 0 => some unanswered
  | .move m => { invoices m with arcaState := .uncertain }
  | k => rows k

def waiting : DbTx := Tx.start ⟨waitingRows, fun _ => 0⟩

theorem waiting_asks : reconcileCertificate waiting.view 0 = some (unanswered, 0) := rfl

def reported (cae : Option String) (result : String) (total : ℚ) : CompConsultado :=
  ⟨cae, some "20260125", some result, some total, some "20260115", some 99, some 0, "R"⟩

end Office

theorem consult_closes_unused_602 :
    ClosesUnused 0 Office.waiting 0 Office.unanswered Office.noVoucher := by
  refine (consult_closes_unused Office.waiting_asks _).mpr ⟨fun _ => ?_, ?_⟩ <;> decide

/-- An empty answer, an answer with nothing in it, and error 602 beside an error of
the service all close the attempt. -/
theorem unexplicit_answers_close :
    ¬ ClosesUnused 0 Office.waiting 0 Office.unanswered (.response none) ∧
      ¬ ClosesUnused 0 Office.waiting 0 Office.unanswered (.response (some ⟨none, none⟩)) ∧
      ¬ ClosesUnused 0 Office.waiting 0 Office.unanswered (.response (some
        ⟨some (some [⟨"602", "No existen datos"⟩, ⟨"500", "Error interno"⟩]), none⟩)) := by
  have hnone : ∀ reply, feCompConsultar reply = .ok none →
      ClosesUnused 0 Office.waiting 0 Office.unanswered reply → SaysNone reply := by
    intro reply hread h
    obtain ⟨b, hb, hst⟩ := reconciled_none 0 Office.waiting_asks hread
    exact h.aborted b hb hst
  refine ⟨fun h => ?_, fun h => ?_, fun h => ?_⟩
  · exact hnone _ (by decide) h
  · exact (hnone _ (by decide) h).1 rfl
  · have hall := (hnone _ (by decide) h).2 ⟨"500", "Error interno"⟩ (by decide)
    exact absurd hall (by decide)

theorem voucher_adopted_own :
    AdoptsOwn 0 Office.waiting 0 Office.unanswered
      (.response (some ⟨none, some (Office.reported (some "74000000000001") "A" 121)⟩))
      ⟨some "74000000000001", some "2026-01-25", some "A", some 121, some "2026-01-15", some 99,
        some 0, "R"⟩ :=
  (voucher_adopted Office.waiting_asks rfl).mpr (.inl (by decide +kernel))

/-- A rejected voucher without a CAE, and the voucher of another invoice. -/
theorem foreign_vouchers_adopted :
    ¬ AdoptsOwn 0 Office.waiting 0 Office.unanswered
      (.response (some ⟨none, some (Office.reported none "R" 121)⟩))
      ⟨none, some "2026-01-25", some "R", some 121, some "2026-01-15", some 99, some 0, "R"⟩ ∧
    ¬ AdoptsOwn 0 Office.waiting 0 Office.unanswered
      (.response (some ⟨none, some (Office.reported (some "74000000000009") "A" 5000)⟩))
      ⟨some "74000000000009", some "2026-01-25", some "A", some 5000, some "2026-01-15", some 99,
        some 0, "R"⟩ := by
  constructor
  · intro h
    have hread : feCompConsultar (.response (some ⟨none, some (Office.reported none "R" 121)⟩)) =
        .ok (some _) := rfl
    obtain ⟨-, b, hb, hst⟩ | ⟨hdue, -⟩ := reconciled_found 0 Office.waiting_asks hread
    · exact absurd (h.attempt b hb hst) (by decide +kernel)
    · exact absurd hdue (by decide +kernel)
  · intro h
    have hread : feCompConsultar (.response (some ⟨none,
        some (Office.reported (some "74000000000009") "A" 5000)⟩)) = .ok (some _) := rfl
    obtain ⟨-, b, hb, hst⟩ | ⟨hdue, -⟩ := reconciled_found 0 Office.waiting_asks hread
    · exact absurd (h.attempt b hb hst) (by decide +kernel)
    · exact absurd hdue (by decide +kernel)

end ArcaEdi
