import ArcaEdi.Aliquots
import ArcaEdi.Printed
import ArcaEdi.QrCode
import ArcaEdi.Log
import ArcaEdi.Receptor

/-!
# Requests that pass

ARCA checks every request it receives. `constants.py` names the checks that the module
makes first: whatever is on record, and whatever leaves, has passed them.
-/

namespace ArcaEdi

open Raise Snapshot Runs Totals

variable {m : Move} {v : View} {today : Date} {docTypeCode posNumber number : Nat}
  {header : FeCabReq} {detail : FeCaeDetRequest}

/-! ## The checks -/

/-- Validation 10015. -/
def FeCaeDetRequest.NamesReceptor (detail : FeCaeDetRequest) : Prop :=
  detail.docTipo = docTypeUnidentified → detail.docNro = 0

/-- Validation 10048, which reads otherwise for class C. -/
structure FeCaeDetRequest.AddsUp (detail : FeCaeDetRequest) (docTypeCode : Nat) : Prop where
  total : detail.amounts.impTotal = detail.amounts.impTotConc + detail.amounts.impNeto +
    detail.amounts.impOpEx + detail.amounts.impIva + detail.amounts.impTrib
  classC : docTypeCode ∈ classCDocumentTypes →
    detail.amounts.impTotal = detail.amounts.impNeto + detail.amounts.impTrib
  cents : ∀ amount ∈ [detail.amounts.impTotConc, detail.amounts.impNeto, detail.amounts.impOpEx,
    detail.amounts.impIva, detail.amounts.impTrib, detail.amounts.impTotal], Multiple cent amount

/-- Validations 10018 to 10022. -/
structure FeCaeDetRequest.ListsVat (detail : FeCaeDetRequest) (docTypeCode : Nat) : Prop where
  classC : docTypeCode ∈ classCDocumentTypes → detail.iva = []
  accepted : ∀ entry ∈ detail.iva, (entry.id : Int) ∈ vatAliquotIds
  once : (detail.iva.map (·.id)).Pairwise (· < ·)

/-- Validation 10040. -/
structure FeCaeDetRequest.Refers (detail : FeCaeDetRequest) (docTypeCode : Nat) : Prop where
  note : docTypeCode ∈ noteDocumentTypes → ∃ origin : CbteAsoc,
    detail.cbtesAsoc = [origin] ∧ origin.tipo ∈ associatedDocumentRules docTypeCode
  other : docTypeCode ∉ noteDocumentTypes → detail.cbtesAsoc = []

/-- The service goes from one day to the same one or to a later one. -/
def ServiceDates.InOrder (dates : ServiceDates) : Prop :=
  ∃ start stop due : Date, stop.before start = false ∧
    dates = ⟨start.compact, stop.compact, due.compact⟩

/-- Validation 10049. -/
structure FeCaeDetRequest.DatesService (detail : FeCaeDetRequest) : Prop where
  concept : detail.serviceDates ≠ none ↔ detail.concepto ∈ conceptsRequiringServiceDates
  inOrder : ∀ dates ∈ detail.serviceDates, dates.InOrder

/-- What the module checks of every request, whatever the data. -/
structure FeCaeDetRequest.Passes (detail : FeCaeDetRequest) (docTypeCode : Nat) : Prop where
  /-- Validation 700. -/
  documentType : (docTypeCode : Int) ∈ supportedDocumentTypes
  oneNumber : detail.cbteHasta = detail.cbteDesde
  receptor : detail.NamesReceptor
  amounts : detail.AddsUp docTypeCode
  vat : detail.ListsVat docTypeCode
  service : detail.DatesService
  associated : detail.Refers docTypeCode

/-- The class of a document, as its name in `WSFEV1_DOCUMENT_TYPES` has it. -/
def documentLetter : Nat → Option String
  | 1 | 2 | 3 | 4 => some "A"
  | 6 | 7 | 8 | 9 => some "B"
  | 11 | 12 | 13 | 15 => some "C"
  | 51 | 52 | 53 | 54 => some "M"
  | _ => none

/-- What the class of a document asks of its receptor. -/
structure FeCaeDetRequest.FitsClass (detail : FeCaeDetRequest) (docTypeCode : Nat) : Prop where
  /-- Validation 10013. -/
  receptor : ClassAM docTypeCode → detail.docTipo = docTypeCuit
  /-- Validation 10243. -/
  condition : ∃ allowed, ivaConditionByClass (documentLetter docTypeCode) = some allowed ∧
    detail.condicionIvaReceptorId ∈ allowed

/-- The document type has the letter of its code. In class A or M the customer is not
unidentified, which `_l10n_ar_arca_customer_document` lets through there. -/
def fitsClass (m : Move) (docTypeCode : Nat) : Bool :=
  m.documentType.bind (·.letter) == documentLetter docTypeCode &&
    (!classAMDocumentTypes.contains docTypeCode ||
      PyText.int? m.partner.afipCode != some docTypeUnidentified)

/-! ## What each part of the request returns -/

theorem validateDocumentTypeCode_supported {code : Int} {label : String}
    (h : Move.validateDocumentTypeCode code label = .ok ()) : code ∈ supportedDocumentTypes := by
  unfold Move.validateDocumentTypeCode at h
  simp only [ite_throw_eq_ok] at h
  exact not_not.mp h.2.2.1

theorem documentTypeCode_supported (h : m.documentTypeCode = .ok docTypeCode) :
    (docTypeCode : Int) ∈ supportedDocumentTypes := by
  unfold Move.documentTypeCode at h
  split at h
  · split at h
    · next code hcode =>
      obtain ⟨⟨⟩, hvalid, hcode'⟩ := bind_eq_ok.mp h
      obtain rfl := pure_eq_ok.mp hcode'
      rw [Int.toNat_of_nonneg (validateDocumentTypeCode_spec hvalid)]
      exact validateDocumentTypeCode_supported hvalid
    · exact absurd h throw_ne_ok
  · exact absurd h throw_ne_ok

theorem customerDocument_receptor
    (h : m.customerDocument docTypeCode = .ok (detail.docTipo, detail.docNro)) :
    detail.NamesReceptor ∧ (ClassAM docTypeCode →
      PyText.int? m.partner.afipCode ≠ some docTypeUnidentified → detail.docTipo = docTypeCuit) := by
  suffices hall : ∀ docType docNumber, m.customerDocument docTypeCode = .ok (docType, docNumber) →
      (docType = docTypeUnidentified → docNumber = 0) ∧ (ClassAM docTypeCode →
        PyText.int? m.partner.afipCode ≠ some docTypeUnidentified → docType = docTypeCuit) from
    hall _ _ h
  clear h
  intro docType docNumber h
  by_cases hblank : m.partner.afipCode = "" ∨ m.partner.rawVat = ""
  · rcases (customerDocument_blank hblank :) with ⟨-, message, hexit⟩ | ⟨hclass, hexit⟩
    · rw [hexit] at h
      cases h
    · rw [hexit] at h
      cases h
      exact ⟨fun _ => rfl, fun hAM => absurd hAM hclass⟩
  cases hcode : PyText.int? m.partner.afipCode with
  | none =>
    rw [customerDocument_unread hblank hcode] at h
    cases h
  | some code =>
    by_cases hne : code = docTypeUnidentified
    · subst hne
      rw [customerDocument_unidentified hblank hcode] at h
      cases h
      exact ⟨fun _ => rfl, fun _ hknown => absurd rfl hknown⟩
    by_cases hcuit : ClassAM docTypeCode → code = docTypeCuit
    · cases hdigits : PyText.allDigits m.partner.rawVat with
      | false =>
        obtain ⟨message, hexit⟩ := customerDocument_letters hblank hcode hne hcuit hdigits
        rw [hexit] at h
        cases h
      | true =>
        rw [customerDocument_digits hblank hcode hne hcuit hdigits] at h
        split at h <;> cases h
        exact ⟨fun heq => absurd heq hne, fun hAM _ => hcuit hAM⟩
    · rw [Classical.not_imp] at hcuit
      obtain ⟨message, hexit⟩ := customerDocument_notCuit hblank hcode hne hcuit.1 hcuit.2
      rw [hexit] at h
      cases h

theorem amounts_addsUp (h : m.amounts docTypeCode = .ok (detail.amounts, detail.iva)) :
    detail.AddsUp docTypeCode := by
  have hsent := amounts_spec h
  refine ⟨hsent.impTotal, fun hclass => ?_, ?_⟩
  · have hconc := hsent.impTotConc
    have hopEx := hsent.impOpEx
    have hiva := hsent.impIva
    rw [if_pos hclass, floatRound_of_multiple multiple_zero] at hconc hopEx hiva
    rw [hsent.impTotal, hconc, hopEx, hiva]
    ring
  · simp only [List.forall_mem_cons, List.not_mem_nil, false_implies, implies_true, and_true]
    have hconc : Multiple cent detail.amounts.impTotConc := hsent.impTotConc ▸ floatRound_multiple _
    have hneto : Multiple cent detail.amounts.impNeto := hsent.impNeto ▸ floatRound_multiple _
    have hopEx : Multiple cent detail.amounts.impOpEx := hsent.impOpEx ▸ floatRound_multiple _
    have hiva : Multiple cent detail.amounts.impIva := hsent.impIva ▸ floatRound_multiple _
    have htrib : Multiple cent detail.amounts.impTrib := hsent.impTrib ▸ floatRound_multiple _
    refine ⟨hconc, hneto, hopEx, hiva, htrib, ?_⟩
    rw [hsent.impTotal]
    exact (((hconc.add hneto).add hopEx).add hiva).add htrib

theorem amounts_listsVat (h : m.amounts docTypeCode = .ok (detail.amounts, detail.iva)) :
    detail.ListsVat docTypeCode := by
  have hiva := (amounts_spec h).iva
  refine ⟨fun hclass => ?_, fun entry hentry => ?_, (aggregateVat_aggregated hiva).ids⟩
  · rw [if_pos hclass] at hiva
    exact (pure_eq_ok.mp hiva).symm
  · have hin : entry.aliquot ∈ aliquots := by
      obtain ⟨line, hline, heq⟩ := List.mem_map.mp
        (((aggregateVat_aggregated hiva).present _).mp (List.mem_map_of_mem hentry))
      exact heq ▸ aggregateVat_ok_iff.mp ⟨_, hiva⟩ line hline
    obtain ⟨id, hid, heq⟩ := List.mem_map.mp hin
    rwa [← Option.some.inj heq]

theorem ivaCondition_allowed {condition : Int} (h : m.ivaCondition = .ok condition) :
    ∃ allowed, ivaConditionByClass (m.documentType.bind (·.letter)) = some allowed ∧
      condition ∈ allowed := by
  unfold Move.ivaCondition at h
  simp only at h
  split at h
  · split at h
    · split at h
      · next allowed hallowed =>
        rw [check_eq_ok] at h
        obtain rfl := pure_eq_ok.mp h.2
        exact ⟨_, hallowed, not_not.mp h.1⟩
      · exact absurd h throw_ne_ok
    · exact absurd h throw_ne_ok
  · exact absurd h throw_ne_ok

theorem serviceDates_inOrder {invoiceDate : Date} {dates : ServiceDates}
    (h : m.serviceDates invoiceDate = .ok dates) : dates.InOrder := by
  unfold Move.serviceDates at h
  rw [check_eq_ok, Bool.not_eq_true] at h
  obtain rfl := pure_eq_ok.mp h.2
  exact ⟨_, _, _, h.1, rfl⟩

theorem associatedDocuments_refers
    (h : m.associatedDocuments v docTypeCode = .ok detail.cbtesAsoc) : detail.Refers docTypeCode := by
  unfold Move.associatedDocuments at h
  split at h
  · next hother => exact ⟨fun hnote => absurd hnote hother, fun _ => (pure_eq_ok.mp h).symm⟩
  · next hnote =>
    refine ⟨fun _ => ?_, fun hother => absurd hother hnote⟩
    split at h
    · simp only at h
      split at h
      · rw [check_eq_ok] at h
        obtain ⟨hrule, h⟩ := h
        obtain ⟨⟨pos, number⟩, -, h⟩ := bind_eq_ok.mp h
        exact ⟨_, (pure_eq_ok.mp h).symm, not_not.mp hrule⟩
      · exact absurd h throw_ne_ok
    · exact absurd h throw_ne_ok

/-! ## The request as a whole -/

theorem prepareRequest_rest
    (h : m.prepareRequest today v docTypeCode posNumber number = .ok (header, detail)) :
    m.ivaCondition = .ok detail.condicionIvaReceptorId ∧ detail.DatesService ∧
      m.associatedDocuments v docTypeCode = .ok detail.cbtesAsoc := by
  unfold Move.prepareRequest at h
  simp only [bind_eq_ok] at h
  obtain ⟨doc, -, cur, -, am, -, cond, hcond, h⟩ := h
  split at h
  · next hconcept =>
    simp only [bind_eq_ok, pure_eq_ok, Prod.mk.injEq] at h
    obtain ⟨services, hservices, associated, hassociated, rfl, rfl⟩ := h
    obtain ⟨dates, hdates, rfl⟩ := map_eq_ok.mp hservices
    refine ⟨hcond, ⟨by simpa using hconcept, ?_⟩, hassociated⟩
    rintro _ ⟨⟩
    exact serviceDates_inOrder hdates
  · next hconcept =>
    simp only [bind_eq_ok, pure_eq_ok, Prod.mk.injEq] at h
    obtain ⟨services, rfl, associated, hassociated, rfl, rfl⟩ := h
    exact ⟨hcond, ⟨by simpa using hconcept, nofun⟩, hassociated⟩

theorem prepareRequest_passes (hcode : m.documentTypeCode = .ok docTypeCode)
    (h : m.prepareRequest today v docTypeCode posNumber number = .ok (header, detail)) :
    detail.Passes docTypeCode := by
  obtain ⟨-, hdesde, hhasta, hamounts⟩ := prepareRequest_spec h
  obtain ⟨hreceptor, -, -⟩ := prepareRequest_fields h
  obtain ⟨-, hservice, hassociated⟩ := prepareRequest_rest h
  exact {
    documentType := documentTypeCode_supported hcode
    oneNumber := hhasta.trans hdesde.symm
    receptor := (customerDocument_receptor hreceptor).1
    amounts := amounts_addsUp hamounts
    vat := amounts_listsVat hamounts
    service := hservice
    associated := associatedDocuments_refers hassociated }

theorem prepareRequest_fitsClass
    (h : m.prepareRequest today v docTypeCode posNumber number = .ok (header, detail))
    (hfits : fitsClass m docTypeCode = true) : detail.FitsClass docTypeCode := by
  obtain ⟨hreceptor, -, -⟩ := prepareRequest_fields h
  obtain ⟨hcondition, -, -⟩ := prepareRequest_rest h
  simp only [fitsClass, Bool.and_eq_true, beq_iff_eq, Bool.or_eq_true, Bool.not_eq_true', bne_iff_ne,
    List.contains_eq_mem, decide_eq_false_iff_not] at hfits
  obtain ⟨hletter, hknown⟩ := hfits
  refine ⟨fun hAM => ?_, hletter ▸ ivaCondition_allowed hcondition⟩
  exact (customerDocument_receptor hreceptor).2 hAM (hknown.resolve_left fun hno => hno hAM)

/-! ## Every run -/

variable {W : Type} {P : Platform} {s s' : Sys W} {a : Act W}

def Stage.request? : Stage → Option Request
  | .prepared _ _ r | .recorded _ r | .sending _ _ r | .awaiting _ _ r | .answered _ _ r => some r
  | .locked | .asking _ _ => none

def Job.request? : Job → Option Request
  | .request _ _ stage => stage.request?
  | .idle | .buttons _ | .cron _ | .isolated _ _ _ _ => none

/-- A request holds one voucher, in the hands of its worker and on its way. -/
structure OneVoucher (s : Sys W) : Prop where
  jobs : ∀ w, ∀ r ∈ (s.worker w).job.request?, r.header.cantReg = 1
  sent : ∀ t ∈ s.arca.sent, t.header.cantReg = 1

variable [DecidableEq W]

theorem jobRequest_step {w : W} {r : Request} (h : Step P s a s')
    (hr : (s'.worker w).job.request? = some r) :
    (s.worker w).job.request? = some r ∨ ∃ reply m key last t t' c, a = .lastAuthorized w reply ∧
      (s.worker w).job = .request m key (.asking t c) ∧
      authorizeCreate P s.clock t m s.nextAttempt c last = .ok (t', r) := by
  rcases job_step h w with ⟨-, hsame⟩ | ⟨-, hjob⟩
  · exact .inl (hsame ▸ hr)
  clear h
  generalize (s'.worker w).job = j' at hr hjob
  generalize (s.worker w).job = j at hjob ⊢
  cases hjob with
  | create h =>
    cases hr
    exact .inr ⟨_, _, _, _, _, _, _, rfl, rfl, h⟩
  | checkpoint | resume | transmit => exact .inl hr
  | outcome hf => cases hf <;> exact .inl hr
  | _ => cases hr

theorem oneVoucher_step (ho : OneVoucher s) (h : Step P s a s') : OneVoucher s' := by
  refine ⟨fun w r hr => ?_, fun t ht => ?_⟩
  · rcases jobRequest_step h hr with hold | ⟨reply, m, key, last, t, t', c, -, -, hcreate⟩
    · exact ho.jobs w r hold
    · obtain ⟨header, detail, hreq, rfl, -⟩ := create_spec hcreate
      obtain ⟨rfl, -⟩ := prepareRequest_spec hreq
      rfl
  · cases sent_step h ht with
    | kept hu => exact ho.sent t hu
    | recorded hu => exact (ho.sent _ hu :)
    | refused hu => exact (ho.sent _ hu :)
    | @transmit w se m key i tx r env cuit hw ha => exact ho.jobs w r (by rw [hw]; rfl)

theorem reachable_oneVoucher {ok : Sys W → Act W → Prop} (h : Reachable (system P) ok s) :
    OneVoucher s := by
  refine reachable_inv ?_ (fun _ _ _ _ _ ho h => oneVoucher_step ho (step_cases h)) h
  intro s hi
  refine ⟨fun w r hr => ?_, by simp [hi.sent]⟩
  rw [hi.workers w] at hr
  cases hr

theorem payload_step {Q : FeCaeDetRequest → Nat → Prop} (hs : Sound s)
    (hcreate : ∀ w reply se m key t (c : Intent) header detail, a = .lastAuthorized w reply →
      s.worker w = ⟨se, .request m key (.asking t c)⟩ →
      (t.view (.move m) : Move).prepareRequest (P.today s.clock) t.view c.seq.documentTypeCode
        c.seq.posNumber c.number = .ok (header, detail) → Q detail c.seq.documentTypeCode)
    (hrows : AllRows (fun _ _ => True) (fun _ b => Q b.requestPayload b.documentTypeCode) s)
    (h : Step P s a s') :
    AllRows (fun _ _ => True) (fun _ b => Q b.requestPayload b.documentTypeCode) s' := by
  refine allRows_step hs (fun _ _ _ _ => id) (fun _ _ _ => id) ?_ hrows h
  intro t i b ht hrows' hwritten
  cases hwritten with
  | create hw hreq => exact hcreate _ _ _ _ _ _ _ _ _ rfl hw hreq
  | outcome hw hf hview hd hev hout hc =>
    rw [hev]
    exact hrows'.attempts _ _ hview
  | reconcile hw hr =>
    rw [hr.evidence]
    exact hrows'.attempts _ _ hr.view

theorem reachable_passes {ok : Sys W → Act W → Prop} (h : Reachable (system P) ok s) :
    AllRows (fun _ _ => True) (fun _ b => b.requestPayload.Passes b.documentTypeCode) s := by
  refine reachable_inv (fun s hi => initial_allRows hi fun _ => trivial) ?_ h
  intro s a s' hr _ hrows h
  have hs := reachable_sound hr
  refine payload_step (Q := FeCaeDetRequest.Passes) hs ?_ hrows (step_cases h)
  intro w reply se m key t c header detail _ hw hreq
  obtain ⟨-, now, hstart⟩ := job_sound hs hw
  obtain ⟨-, -, -, -, hcode⟩ := authorizeStart_spec hstart
  exact prepareRequest_passes hcode hreq

/-- A run that is about to make its request, and what it is for. -/
def Job.preparing? : Job → Option (DbTx × Nat × Intent)
  | .request m _ (.asking t c) => some (t, m, c)
  | _ => none

/-- Requests are made for invoices whose receptor fits the class of the document. -/
def asksByClass (s : Sys W) (a : Act W) : Bool :=
  match a with
  | .lastAuthorized w _ => (s.worker w).job.preparing?.all fun p =>
    fitsClass (p.1.view (.move p.2.1)) p.2.2.seq.documentTypeCode
  | _ => true

theorem reachable_fitsClass (h : Reachable (system P) (fun s a => asksByClass s a = true) s) :
    AllRows (fun _ _ => True) (fun _ b => b.requestPayload.FitsClass b.documentTypeCode) s := by
  refine reachable_inv (fun s hi => initial_allRows hi fun _ => trivial) ?_ h
  intro s a s' hr hok hrows h
  refine payload_step (Q := FeCaeDetRequest.FitsClass) (reachable_sound hr) ?_ hrows (step_cases h)
  rintro w reply se m key t c header detail rfl hw hreq
  simp only [asksByClass, hw, Job.preparing?, Option.all_some] at hok
  exact prepareRequest_fitsClass hreq hok

omit [DecidableEq W] in
theorem sent_keeps {Q : FeCaeDetRequest → Nat → Prop} (hl : Logged s)
    (hrows : AllRows (fun _ _ => True) (fun _ b => Q b.requestPayload b.documentTypeCode) s)
    {t : Transmission} (ht : t ∈ s.arca.sent) : Q t.detail t.header.cbteTipo := by
  obtain ⟨b, hb, hasked⟩ := hl.asked t ht
  rw [← hasked.payload, ← hasked.documentTypeCode]
  exact hrows.db.attempts _ b hb

/-- In every run, each request on record and each request that left has passed the
checks, and holds one voucher. Where requests are made for receptors that fit the class
of the document, each of them fits it. -/
theorem requests_pass (h : Reachable (system P) Always s) :
    ((∀ i b, s.db.row (.attempt i) = some b → b.requestPayload.Passes b.documentTypeCode) ∧
      ∀ t ∈ s.arca.sent, t.header.cantReg = 1 ∧ t.detail.Passes t.header.cbteTipo) ∧
    (Reachable (system P) (fun s a => asksByClass s a = true) s →
      (∀ i b, s.db.row (.attempt i) = some b → b.requestPayload.FitsClass b.documentTypeCode) ∧
        ∀ t ∈ s.arca.sent, t.detail.FitsClass t.header.cbteTipo) := by
  have hl := reachable_logged h
  refine ⟨⟨(reachable_passes h).db.attempts, fun t ht => ?_⟩, fun hfit => ?_⟩
  · exact ⟨(reachable_oneVoucher h).sent t ht, sent_keeps hl (reachable_passes h) ht⟩
  · have hrows := reachable_fitsClass hfit
    exact ⟨hrows.db.attempts, fun t ht => sent_keeps hl hrows ht⟩

theorem requests_pass_sent :
    ∃ s : Sys (Fin 3), Reachable (system Office.platform) Always s ∧ ∃ t ∈ s.arca.sent,
      t.header.cantReg = 1 ∧ t.detail.Passes t.header.cbteTipo ∧
        t.detail.FitsClass t.header.cbteTipo := by
  obtain ⟨s, hs, hsent⟩ := Office.reaches (fun s a => asksByClass s a = true)
    (Office.posted 0 0 ++ Office.recorded 0 0 0 ++ [.resume 0, .transmit 0])
    (fun s => s.arca.sent != []) (by decide +kernel)
  obtain ⟨t, ht⟩ := List.exists_mem_of_ne_nil _ (bne_iff_ne.mp hsent)
  have hall := reachable_mono (fun _ _ _ _ _ => trivial) hs
  obtain ⟨⟨-, hpass⟩, hfit⟩ := requests_pass hall
  exact ⟨s, hall, t, ht, (hpass t ht).1, (hpass t ht).2, (hfit hs).2 t ht⟩

end ArcaEdi
