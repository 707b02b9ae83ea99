import ArcaEdi.Amounts
import ArcaEdi.Answers

/-!
# The QR code and the request

Both are made from the invoice, the request from the breakdown of its lines and
the QR from its total.
-/

namespace ArcaEdi

open Snapshot Raise Totals

/-! ## Dates -/

theorem filter_digits {n : Nat} : (toString n).toList.filter (· ≠ '-') = (toString n).toList := by
  rw [List.filter_eq_self]
  intro c hc
  rw [Nat.toString_eq_repr, Nat.toList_repr] at hc
  have hdigit := Nat.isDigit_of_mem_toDigits (by decide) (by decide) hc
  rw [decide_eq_true_eq]
  rintro rfl
  exact absurd hdigit (by decide)

theorem filter_zeroPad {width n : Nat} :
    (PyText.zeroPad width n).toList.filter (· ≠ '-') = (PyText.zeroPad width n).toList := by
  simp only [PyText.zeroPad, String.toList_append, String.toList_ofList, List.filter_append,
    filter_digits]
  simp

def undashed (fecha : String) : String := String.ofList (fecha.toList.filter (· ≠ '-'))

theorem undashed_iso (d : Date) : undashed d.iso = d.compact := by
  apply String.toList_injective
  simp only [undashed, Date.iso, Date.compact, String.toList_append, String.toList_ofList,
    List.filter_append, filter_digits, filter_zeroPad]
  simp

/-! ## What the request says of the invoice -/

theorem prepareRequest_fields {today : Date} {v : View} {m : Move} {docTypeCode posNumber number : Nat}
    {header : FeCabReq} {detail : FeCaeDetRequest}
    (h : m.prepareRequest today v docTypeCode posNumber number = .ok (header, detail)) :
    m.customerDocument docTypeCode = .ok (detail.docTipo, detail.docNro) ∧
      m.currencyValues = .ok (detail.monId, detail.monCotiz) ∧
      detail.cbteFch = (m.invoiceDate.getD today).compact := by
  unfold Move.prepareRequest at h
  simp only [bind_eq_ok] at h
  obtain ⟨⟨docType, docNumber⟩, hdoc, ⟨code, rate⟩, hcurrency, am, -, cond, -, h⟩ := h
  split at h <;>
  · simp only [bind_eq_ok, pure_eq_ok, Prod.mk.injEq] at h
    obtain ⟨_, -, _, -, rfl, rfl⟩ := h
    exact ⟨hdoc, hcurrency, rfl⟩

/-- The QR repeats the request: issuer, voucher, date, currency, receptor and total. -/
structure QrPayload.Repeats (qr : QrPayload) (cuit : Int) (header : FeCabReq)
    (detail : FeCaeDetRequest) : Prop where
  cuit : qr.cuit = cuit
  ptoVta : qr.ptoVta = header.ptoVta
  tipoCmp : qr.tipoCmp = header.cbteTipo
  nroCmp : qr.nroCmp = detail.cbteDesde
  fecha : undashed qr.fecha = detail.cbteFch
  moneda : qr.moneda = detail.monId
  ctz : qr.ctz = detail.monCotiz
  tipoDocRec : qr.tipoDocRec = detail.docTipo
  nroDocRec : qr.nroDocRec = detail.docNro
  importe : qr.importe = detail.amounts.impTotal

/-- The invoice and its company as they were, with the CAE that ARCA gave. -/
structure Unchanged (v v' : View) (m : Nat) (cae : String) : Prop where
  form : (v' (.move m) : Move).toMoveForm = (v (.move m) : Move).toMoveForm
  company : (v' (.company (v (.move m) : Move).companyId) : Company) =
    v (.company (v (.move m) : Move).companyId)
  cae : (v' (.move m) : Move).cae = some cae

/-- The five components of the breakdown, each in cents. -/
def componentTotal (lines : InvoiceLines) (docTypeCode : Nat) : ℚ :=
  let listed (amount : ℚ) := floatRound 2 (if docTypeCode ∈ classCDocumentTypes then 0 else amount)
  listed lines.vatUntaxedBaseAmount + floatRound 2 lines.vatTaxableAmount +
    listed lines.vatExemptBaseAmount + listed lines.vatAmount + floatRound 2 lines.notVatTaxesAmount

theorem impTotal_eq {m : Move} {docTypeCode : Nat} {a : Amounts} {iva : List AlicIva}
    (h : m.amounts docTypeCode = .ok (a, iva)) : a.impTotal = componentTotal m.lines docTypeCode := by
  have hsent := amounts_spec h
  rw [hsent.impTotal, hsent.impTotConc, hsent.impNeto, hsent.impOpEx, hsent.impIva, hsent.impTrib]
  rfl

/-- The total of the invoice is within half a cent of its components. -/
def TotalsAgree (lines : InvoiceLines) (docTypeCode : Nat) : Prop :=
  componentTotal lines docTypeCode - 1 / 200 ≤ |lines.amountTotal| ∧
    |lines.amountTotal| < componentTotal lines docTypeCode + 1 / 200

instance (lines : InvoiceLines) (docTypeCode : Nat) : Decidable (TotalsAgree lines docTypeCode) :=
  inferInstanceAs (Decidable (_ ∧ _))

theorem importe_eq_iff {m : Move} {docTypeCode : Nat} {a : Amounts} {iva : List AlicIva}
    (h : m.amounts docTypeCode = .ok (a, iva)) :
    floatRound 2 |m.lines.amountTotal| = a.impTotal ↔ TotalsAgree m.lines docTypeCode := by
  have hcents : Multiple cent a.impTotal := by
    rw [impTotal_eq h]
    exact ((((floatRound_multiple _).add (floatRound_multiple _)).add (floatRound_multiple _)).add
      (floatRound_multiple _)).add (floatRound_multiple _)
  rw [floatRound_eq, roundTo_eq_iff cent_pos hcents, impTotal_eq h]
  unfold Settles TotalsAgree
  rw [if_neg (not_lt.mpr (abs_nonneg _)), cent]
  constructor <;> rintro ⟨hle, hlt⟩ <;> constructor <;> linarith

/-! ## The QR of an authorized invoice -/

theorem form_congr {a b : Move} (h : a.toMoveForm = b.toMoveForm) (docTypeCode : Nat) :
    a.documentNumberParts = b.documentNumberParts ∧ a.documentType = b.documentType ∧
      a.currencyValues = b.currencyValues ∧
      a.customerDocument docTypeCode = b.customerDocument docTypeCode ∧
      a.invoiceDate = b.invoiceDate ∧ a.lines = b.lines ∧ a.companyId = b.companyId := by
  unfold Move.documentNumberParts Move.currencyValues Move.customerDocument
  simp only [h, and_self]

section Printed

variable {now m : Nat} {today today' : Date} {v v' : View} {c : Intent} {env : Environment}
  {cuit codAut : Int} {header : FeCabReq} {detail : FeCaeDetRequest} {cae : String}

/-- The request of a run, and the CAE that the invoice has of it. -/
structure Authorized (now : Nat) (today : Date) (v v' : View) (m : Nat) (c : Intent)
    (cuit : Int) (header : FeCabReq) (detail : FeCaeDetRequest) (cae : String) (codAut : Int) :
    Prop where
  start : authorizeStart now v m = .ok c
  auth : ∃ env, Sys.auth now v c.certificateId c.seq.issuerCuit = some (env, cuit)
  request : (v (.move m) : Move).prepareRequest today v c.seq.documentTypeCode c.seq.posNumber
    c.number = .ok (header, detail)
  unchanged : Unchanged v v' m cae
  numeric : PyText.int? cae = some codAut

theorem qrPayload_authorized (h : Authorized now today v v' m c cuit header detail cae codAut)
    (today' : Date) :
    qrPayload today' v' m = .ok {
      fecha := ((v (.move m) : Move).invoiceDate.getD today').iso
      cuit := cuit
      ptoVta := header.ptoVta
      tipoCmp := header.cbteTipo
      nroCmp := detail.cbteDesde
      importe := floatRound 2 |(v (.move m) : Move).lines.amountTotal|
      moneda := detail.monId
      ctz := detail.monCotiz
      tipoDocRec := detail.docTipo
      nroDocRec := detail.docNro
      codAut := codAut } := by
  obtain ⟨-, -, hseq, hparts, hcode⟩ := authorizeStart_spec h.start
  obtain ⟨env, hauth⟩ := h.auth
  obtain ⟨-, -, hcuit⟩ := auth_spec hauth
  obtain ⟨rfl, hdesde, -, -⟩ := prepareRequest_spec h.request
  obtain ⟨hreceptor, hcurrency, -⟩ := prepareRequest_fields h.request
  obtain ⟨hparts', htype', hcurrency', hreceptor', hdate', hlines', hcompany'⟩ :=
    form_congr h.unchanged.form c.seq.documentTypeCode
  have hissuer := moveSequence_cuit hseq
  have hissuer' : (v' (.company (v' (.move m) : Move).companyId) : Company).issuerCuit =
      .ok c.seq.issuerCuit := by
    rw [hcompany', h.unchanged.company]
    exact hissuer
  have hcode' : PyText.intField? ((v' (.move m) : Move).documentType.bind (·.code)) =
      some (c.seq.documentTypeCode : Int) := by
    rw [htype']
    exact documentTypeCode_spec hcode
  have hcae' : PyText.intField? (v' (.move m) : Move).cae = some codAut := by
    rw [h.unchanged.cae]
    exact h.numeric
  unfold qrPayload
  simp only [bind_eq_ok]
  refine ⟨_, hissuer', _, hparts'.trans hparts, ?_⟩
  simp only [hcode', bind_eq_ok]
  refine ⟨_, hcurrency'.trans hcurrency, _, hreceptor'.trans hreceptor, ?_⟩
  simp only [hcuit, hcae', hdate', hlines', hdesde]
  rfl

/-- The QR repeats the request exactly when the two totals agree, and the day it was
made on is not read again. -/
theorem qr_repeats_request (h : Authorized now today v v' m c cuit header detail cae codAut)
    (today' : Date) :
    (∃ qr, qrPayload today' v' m = .ok qr ∧ qr.Repeats cuit header detail) ↔
      TotalsAgree (v (.move m) : Move).lines c.seq.documentTypeCode ∧
        ((v (.move m) : Move).invoiceDate ≠ none ∨ today.compact = today'.compact) := by
  obtain ⟨-, -, -, hamounts⟩ := prepareRequest_spec h.request
  obtain ⟨-, -, hfecha⟩ := prepareRequest_fields h.request
  have hqr := qrPayload_authorized h today'
  have hday : undashed ((v (.move m) : Move).invoiceDate.getD today').iso = detail.cbteFch ↔
      (v (.move m) : Move).invoiceDate ≠ none ∨ today.compact = today'.compact := by
    rw [undashed_iso, hfecha]
    cases (v (.move m) : Move).invoiceDate with
    | none => simp [eq_comm]
    | some d => simp
  rw [← importe_eq_iff hamounts, ← hday]
  constructor
  · rintro ⟨qr, hok, hrepeats⟩
    obtain rfl := Except.ok.inj (hqr.symm.trans hok)
    exact ⟨hrepeats.importe, hrepeats.fecha⟩
  · rintro ⟨himporte, hfecha'⟩
    exact ⟨_, hqr, rfl, rfl, rfl, rfl, hfecha', rfl, rfl, rfl, rfl, himporte⟩

end Printed

namespace Office

/-- Invoice 0 as it is posted, with a total of its own. -/
def totalled (total : ℚ) : Move :=
  { invoice 0 1 with
    state := .posted
    arcaState := .pending
    lines := ⟨100, 21, 0, 0, 0, [⟨"5", 100, 21⟩], total⟩ }

/-- The office with that invoice, and with the certificate of company 0 in use. -/
def totalledRows (total : ℚ) (status : ArcaStatus) : View
  | .move 0 => { totalled total with toArcaStatus := status }
  | .certificate 0 =>
    { name := "arca", companyId := 0, holderCuit := "20-12345678-6", environment := .testing
      state := .active, privateKey := some ⟨7⟩, certificate := some (.pem ⟨7, none, 0, 1000000⟩)
      certDateStart := some 0, certDateEnd := some 1000000 }
  | k => rows k

def withCae : ArcaStatus := { arcaState := .authorized, cae := some "74000000000001" }

theorem authorized_totalled (total : ℚ) (hstart : authorizeStart 0 (totalledRows total {
      arcaState := .pending }) 0 = .ok ⟨0, ⟨"20123456786", 1, 6⟩, 1⟩)
    (hrequest : (totalled total).prepareRequest ⟨2026, 1, 15⟩ (totalledRows total {
      arcaState := .pending }) 6 1 1 = .ok (⟨1, 1, 6⟩, detail)) :
    Authorized 0 ⟨2026, 1, 15⟩ (totalledRows total { arcaState := .pending })
      (totalledRows total withCae) 0 ⟨0, ⟨"20123456786", 1, 6⟩, 1⟩ 20123456786 ⟨1, 1, 6⟩ detail
      "74000000000001" 74000000000001 where
  start := hstart
  auth := by
    have hauth : Sys.auth 0 (totalledRows total { arcaState := .pending }) 0 "20123456786" =
        Sys.auth 0 (totalledRows 121 { arcaState := .pending }) 0 "20123456786" := rfl
    exact ⟨.testing, hauth.trans (by decide +kernel)⟩
  request := hrequest
  unchanged := ⟨rfl, rfl, rfl⟩
  numeric := by decide +kernel

end Office

theorem qr_repeats_request_121 :
    ∃ qr, qrPayload ⟨2026, 1, 16⟩ (Office.totalledRows 121 Office.withCae) 0 = .ok qr ∧
      qr.Repeats 20123456786 ⟨1, 1, 6⟩ Office.detail :=
  (qr_repeats_request (Office.authorized_totalled 121 (by decide +kernel) (by decide +kernel)) _).mpr
    ⟨by decide +kernel, .inl (by decide +kernel)⟩

/-- The lines add up to one cent less than the invoice, which the request leaves out and
the QR does not. -/
theorem qr_contradicts_request :
    Authorized 0 ⟨2026, 1, 15⟩ (Office.totalledRows (12101 / 100) { arcaState := .pending })
        (Office.totalledRows (12101 / 100) Office.withCae) 0 ⟨0, ⟨"20123456786", 1, 6⟩, 1⟩
        20123456786 ⟨1, 1, 6⟩ Office.detail "74000000000001" 74000000000001 ∧
      ∀ qr, qrPayload ⟨2026, 1, 15⟩ (Office.totalledRows (12101 / 100) Office.withCae) 0 = .ok qr →
        ¬ qr.Repeats 20123456786 ⟨1, 1, 6⟩ Office.detail := by
  have hauthorized := Office.authorized_totalled (12101 / 100) (by decide +kernel)
    (by decide +kernel)
  refine ⟨hauthorized, fun qr hqr hrepeats => ?_⟩
  obtain rfl := Except.ok.inj ((qrPayload_authorized hauthorized _).symm.trans hqr)
  exact absurd hrepeats.importe (by decide +kernel)

end ArcaEdi
