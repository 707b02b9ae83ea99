import Mathlib.Data.Rat.Floor
import Mathlib.Data.List.Sort
import ArcaEdi.Lib.PyText
import ArcaEdi.Records

/-!
# What an invoice asks ARCA for

The request that `account_move.py` builds from an invoice, with the refusals on
the way. Amounts are exact rationals.
-/

namespace ArcaEdi

/-! ## Reference data: `constants.py` -/

def fceDocumentTypes : List Int := [201, 202, 203, 206, 207, 208, 211, 212, 213]
def supportedDocumentTypes : List Int :=
  [1, 2, 3, 4, 6, 7, 8, 9, 11, 12, 13, 15, 51, 52, 53, 54]
def wsfexDocumentTypes : List Int := [19, 20, 21]
def classCDocumentTypes : List Nat := [11, 12, 13, 15, 211, 212, 213]
def classAMDocumentTypes : List Nat := [1, 2, 3, 4, 51, 52, 53, 54, 201, 202, 203]
def noteDocumentTypes : List Nat := [2, 3, 7, 8, 12, 13, 52, 53]

/-- `ASSOCIATED_DOCUMENT_RULES`: what each note may refer to. -/
def associatedDocumentRules : Nat → List Int
  | 2 | 3 => [1, 2, 3, 4, 5, 34, 39, 60, 63, 88, 991]
  | 7 | 8 => [6, 7, 8, 9, 10, 35, 40, 61, 64, 88, 991]
  | 12 | 13 => [11, 12, 13, 15]
  | 52 | 53 => [51, 52, 53, 54, 88, 991]
  | 1 | 6 | 51 => [88, 991]
  | _ => []

def vatAliquotIds : List Int := [3, 4, 5, 6, 8, 9]

/-- `IVA_CONDITION_BY_CLASS`: what ARCA accepts of the receptor in each class. -/
def ivaConditionByClass : Option String → Option (List Int)
  | some "A" | some "M" => some [1, 6, 13, 16]
  | some "B" => some [4, 5, 7, 8, 9, 10, 15]
  | some "C" => some [1, 4, 5, 6, 7, 8, 9, 10, 13, 15, 16]
  | _ => none

def docTypeCuit : Int := 80
def docTypeUnidentified : Int := 99
def amountAbsoluteTolerance : ℚ := 1 / 100
def amountRelativeTolerance : ℚ := 1 / 10000
def conceptProducts : Nat := 1
def conceptsRequiringServiceDates : List Nat := [2, 3]
def arsCurrencyCode : String := "PES"

/-! ## Numbers and dates -/

/-- Odoo's `float_round`: half goes away from zero. -/
def floatRound (precisionDigits : Nat) (x : ℚ) : ℚ :=
  let scale : ℚ := 10 ^ precisionDigits
  let magnitude : ℚ := ((|x| * scale + 1 / 2).floor : ℚ) / scale
  if x < 0 then -magnitude else magnitude

/-- `strftime("%Y%m%d")` -/
def Date.compact (d : Date) : String :=
  toString d.year ++ PyText.zeroPad 2 d.month ++ PyText.zeroPad 2 d.day

def Date.before (a b : Date) : Bool :=
  a.year < b.year || a.year == b.year &&
    (a.month < b.month || a.month == b.month && a.day < b.day)

def Date.daysInMonth (year month : Nat) : Nat :=
  if month = 2 then (if year % 4 = 0 ∧ (year % 100 ≠ 0 ∨ year % 400 = 0) then 29 else 28)
  else if month ∈ [4, 6, 9, 11] then 30 else 31

def asciiDigit? (c : Char) : Option Nat := if c.isDigit then some (c.toNat - '0'.toNat) else none

/-- The two digits that strptime reads as `%m`: from 01 to 12, in ASCII. -/
def Date.month? (tens units : Char) : Option Nat :=
  match asciiDigit? tens, asciiDigit? units with
  | some t, some u => if 1 ≤ 10 * t + u ∧ 10 * t + u ≤ 12 then some (10 * t + u) else none
  | _, _ => none

/-- The two digits that strptime reads as `%d`. After 1 or 2 it takes any decimal digit. -/
def Date.day? (tens units : Char) : Option Nat :=
  match asciiDigit? tens with
  | some 0 => (asciiDigit? units).bind fun u => if 1 ≤ u then some u else none
  | some 3 => (asciiDigit? units).bind fun u => if u ≤ 1 then some (30 + u) else none
  | some t => if t ≤ 2 then (PyText.decimal? units).map (10 * t + ·) else none
  | none => none

/-- A write to a Date field. The ISO text has to be a day of the calendar. -/
def dateField : Option String → Except Exn (Option Date)
  | none => .ok none
  | some iso =>
    match iso.toList with
    | [y1, y2, y3, y4, '-', m1, m2, '-', d1, d2] =>
      match [y1, y2, y3, y4].mapM PyText.decimal?, Date.month? m1 m2, Date.day? d1 d2 with
      | some digits, some month, some day =>
        let year := PyText.natOfDigits digits
        if 1 ≤ year ∧ day ≤ Date.daysInMonth year month then .ok (some ⟨year, month, day⟩)
        else .error .valueError
      | _, _, _ => .error .valueError
    | _ => .error .valueError

namespace Move

/-! ## Identity of the voucher -/

/-- `_l10n_ar_arca_validate_document_type_code`. Each kind of refusal has its message. -/
def validateDocumentTypeCode (code : Int) (label : String) : Except Exn Unit :=
  let label := if label = "" then toString code else label
  if code ∈ wsfexDocumentTypes then
    throw (.userError
      (s!"'{label}' is an export document. Export vouchers are authorized by WSFEX, a different "
        ++ "ARCA web service that this module does not implement."))
  else if code ∈ fceDocumentTypes then
    throw (.userError
      (s!"'{label}' is a MiPyME credit invoice (FCE). Those require the Opcionales group that this "
        ++ "module does not implement yet."))
  else if code ∉ supportedDocumentTypes then
    throw (.userError s!"Document type '{label}' (code {code}) is not accepted by WSFEv1.")
  else return ()

/-- `_l10n_ar_arca_document_type_code`: the code as a number, and one that is supported. -/
def documentTypeCode (m : Move) : Except Exn Nat := do
  let some docType := m.documentType | throw (.userError "This invoice has no document type.")
  let some code := PyText.intField? docType.code
    | throw (.userError s!"Document type '{docType.displayName}' has a non numeric code.")
  validateDocumentTypeCode code docType.displayName
  return code.toNat

/-- The point of sale and the number. -/
def documentNumberParts (m : Move) : Except Exn (Nat × Nat) :=
  match m.documentNumber with
  | some number => .ok (number.pointOfSale, number.invoiceNumber)
  | none =>
    .error (.userError "This invoice has no document number yet; post it before authorizing.")

/-! ## Receptor and currency -/

/-- `_l10n_ar_arca_currency_values`: MonId and MonCotiz. -/
def currencyValues (m : Move) : Except Exn (String × ℚ) := do
  if m.currency.id = m.companyCurrencyId then return (arsCurrencyCode, 1)
  match m.currency.afipCode with
  | none | some "" =>
    throw (.userError
      (s!"Currency {m.currency.name} has no ARCA code. Set it in Accounting > Configuration > "
        ++ "Currencies."))
  | some code =>
    if m.invoiceCurrencyRate = 0 then
      throw (.userError "This invoice has no exchange rate, so ARCA cannot be told one.")
    return (code, floatRound 6 (1 / m.invoiceCurrencyRate))

/-- `_l10n_ar_arca_customer_document`: DocTipo and DocNro. -/
def customerDocument (m : Move) (docTypeCode : Nat) : Except Exn (Int × Int) := do
  let partner := m.partner
  let rawVat := String.ofList
    ((partner.vat.getD "").toList.filter fun ch => ch ≠ '-' && ch ≠ ' ' && ch ≠ '.')
  let afipCode := (partner.identificationType.bind (·.afipCode)).getD ""
  let isClassAM := decide (docTypeCode ∈ classAMDocumentTypes)
  if afipCode = "" ∨ rawVat = "" then
    if isClassAM then
      throw (.userError
        (s!"Customer '{partner.displayName}' needs a CUIT to be invoiced with a class A or M "
          ++ "document."))
    return (docTypeUnidentified, 0)
  let some docType := PyText.int? afipCode | throw .valueError
  if docType = docTypeUnidentified then return (docTypeUnidentified, 0)
  if isClassAM ∧ docType ≠ docTypeCuit then
    let idType := (partner.identificationType.map (·.displayName)).getD ""
    throw (.userError
      ("Class A and M documents require the customer to be identified by CUIT, but "
        ++ s!"'{partner.displayName}' is identified by {idType}."))
  if !PyText.allDigits rawVat then
    throw (.userError
      (s!"The identification number of '{partner.displayName}' must contain digits only to be "
        ++ "reported to ARCA."))
  let some number := PyText.int? rawVat | throw .valueError
  return (docType, number)

/-- `_l10n_ar_arca_iva_condition`, checked against the letter of the document type. -/
def ivaCondition (m : Move) : Except Exn Int := do
  let partner := m.partner
  let some responsibility := partner.responsibility
    | throw (.userError
        (s!"Customer '{partner.displayName}' has no ARCA responsibility type. It is required to "
          ++ "report the receptor VAT condition (RG 5616)."))
  let some conditionId := PyText.intField? responsibility.code
    | throw (.userError s!"ARCA responsibility '{responsibility.name}' has a non numeric code.")
  let letter := m.documentType.bind (·.letter)
  let shown := (letter.map fun l => s!"'{l}'").getD "False"
  let some allowed := ivaConditionByClass letter
    | throw (.userError s!"Document class {shown} has no known receptor VAT conditions.")
  if conditionId ∉ allowed then
    let documentClass := letter.getD ""
    throw (.userError
      (s!"Customer '{partner.displayName}' is registered as '{responsibility.name}', which ARCA "
        ++ s!"does not accept on a class {documentClass} document. Either change the customer's "
        ++ "ARCA responsibility or issue a different document type."))
  return conditionId

/-! ## Amounts -/

/-- `_l10n_ar_arca_check_total`. Both tolerances must be exceeded. -/
def checkTotal (m : Move) (computedTotal : ℚ) : Except Exn Unit :=
  let invoiceTotal := floatRound 2 |m.lines.amountTotal|
  let difference := |invoiceTotal - computedTotal|
  let relative := if invoiceTotal = 0 then difference else difference / invoiceTotal
  if amountAbsoluteTolerance < difference ∧ amountRelativeTolerance < relative then
    throw (.userError
      ("The ARCA amount breakdown does not add up to the invoice total: the invoice totals "
        ++ s!"{invoiceTotal} but the breakdown adds up to {computedTotal}. Check the taxes used on "
        ++ "this invoice."))
  else return ()

/-- One line into the entry of its aliquot, which is created at the first one. -/
def addVatLine (aliquotId : Nat) (line : VatLine) : List AlicIva → List AlicIva
  | [] => [⟨aliquotId, line.baseImp, line.importe⟩]
  | entry :: rest =>
    if entry.id = aliquotId then
      ⟨aliquotId, entry.baseImp + line.baseImp, entry.importe + line.importe⟩ :: rest
    else entry :: addVatLine aliquotId line rest

/-- `_l10n_ar_arca_aggregate_vat`: one entry per aliquot, rounded once and sorted. -/
def aggregateVat (vatLines : List VatLine) : Except Exn (List AlicIva) := do
  let aggregated ← vatLines.foldlM (fun aggregated line => do
    let some aliquotId := PyText.int? line.id | throw .valueError
    if aliquotId ∉ vatAliquotIds then
      throw (.userError
        s!"VAT aliquot code {aliquotId} is not one ARCA accepts inside the AlicIva group.")
    return addVatLine aliquotId.toNat line aggregated) []
  let rounded := aggregated.map fun entry =>
    (⟨entry.id, floatRound 2 entry.baseImp, floatRound 2 entry.importe⟩ : AlicIva)
  return rounded.insertionSort (·.id ≤ ·.id)

/-- `_l10n_ar_arca_amounts`. Class C discriminates no VAT. -/
def amounts (m : Move) (docTypeCode : Nat) : Except Exn (Amounts × List AlicIva) := do
  let lines := m.lines
  let isClassC := decide (docTypeCode ∈ classCDocumentTypes)
  let impTotConc := floatRound 2 (if isClassC then 0 else lines.vatUntaxedBaseAmount)
  let impNeto := floatRound 2 lines.vatTaxableAmount
  let impOpEx := floatRound 2 (if isClassC then 0 else lines.vatExemptBaseAmount)
  let impIva := floatRound 2 (if isClassC then 0 else lines.vatAmount)
  let impTrib := floatRound 2 lines.notVatTaxesAmount
  let total := floatRound 2 (impTotConc + impNeto + impOpEx + impIva + impTrib)
  m.checkTotal total
  let iva ← aggregateVat (if isClassC then [] else lines.vatLines)
  return (⟨impTotConc, impNeto, impOpEx, impIva, impTrib, total⟩, iva)

/-! ## The request -/

/-- `_l10n_ar_arca_associated_documents`: a note names the invoice that it adjusts. -/
def associatedDocuments (v : View) (m : Move) (docTypeCode : Nat) : Except Exn (List CbteAsoc) := do
  if docTypeCode ∉ noteDocumentTypes then return []
  let some originId := m.reversedEntryId.orElse fun _ => m.debitOriginId
    | throw (.userError
        ("A credit or debit note must reference the invoice it adjusts. Create it from the original "
          ++ "invoice so ARCA can be told which voucher it corrects."))
  let origin : Move := v (.move originId)
  let some originCode := PyText.intField? (origin.documentType.bind (·.code))
    | throw (.userError "The referenced invoice has no usable ARCA document type.")
  if originCode ∉ associatedDocumentRules docTypeCode then
    let noteName := (m.documentType.map (·.displayName)).getD ""
    let originName := (origin.documentType.map (·.displayName)).getD ""
    throw (.userError s!"ARCA does not allow a {noteName} to reference a {originName}.")
  let (originPos, originNumber) ← origin.documentNumberParts
  return [⟨originCode, originPos, originNumber, origin.invoiceDate.map (·.compact)⟩]

/-- The period of a service and when it is due, by default the date of the invoice. -/
def serviceDates (m : Move) (invoiceDate : Date) : Except Exn ServiceDates := do
  let start := m.serviceStart.getD invoiceDate
  let stop := m.serviceEnd.getD invoiceDate
  if stop.before start then
    throw (.userError "The ARCA service end date cannot be earlier than the start date.")
  return ⟨start.compact, stop.compact, (m.invoiceDateDue.getD invoiceDate).compact⟩

/-- `_l10n_ar_arca_prepare_request`. The day is the one that `context_today` gives. -/
def prepareRequest (today : Date) (v : View) (m : Move) (docTypeCode posNumber number : Nat) :
    Except Exn (FeCabReq × FeCaeDetRequest) := do
  let invoiceDate := m.invoiceDate.getD today
  let concept := m.afipConcept.getD conceptProducts
  let (docType, docNumber) ← m.customerDocument docTypeCode
  let (currencyCode, currencyRate) ← m.currencyValues
  let (amounts, vatLines) ← m.amounts docTypeCode
  let condition ← m.ivaCondition
  let services ←
    if concept ∈ conceptsRequiringServiceDates then some <$> m.serviceDates invoiceDate else pure none
  let associated ← m.associatedDocuments v docTypeCode
  return (⟨1, posNumber, docTypeCode⟩,
    { concepto := concept
      docTipo := docType
      docNro := docNumber
      cbteDesde := number
      cbteHasta := number
      cbteFch := invoiceDate.compact
      amounts := amounts
      monId := currencyCode
      monCotiz := currencyRate
      condicionIvaReceptorId := condition
      serviceDates := services
      iva := vatLines
      cbtesAsoc := associated })

end Move

end ArcaEdi
