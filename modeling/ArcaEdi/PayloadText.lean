import ArcaEdi.Lib.PrettyJson
import ArcaEdi.QrUrl
import ArcaEdi.Requests

/-!
# The text of a request

An attempt keeps its request as JSON text. The text on record is read as the request that
left, and as no other one.
-/

namespace ArcaEdi

open Raise Snapshot Runs Totals Json FloatText

/-! ## The dict that `_l10n_ar_arca_prepare_request` returns -/

def AlicIva.json (entry : AlicIva) : Json :=
  .obj [("Id", .int entry.id), ("BaseImp", .float entry.baseImp), ("Importe", .float entry.importe)]

/-- The date stands in it where the origin has one. -/
def CbteAsoc.json (associated : CbteAsoc) : Json :=
  .obj ([("Tipo", .int associated.tipo), ("PtoVta", .int associated.ptoVta),
    ("Nro", .int associated.nro)] ++
    (associated.cbteFch.map fun cbteFch => ("CbteFch", Json.str cbteFch)).toList)

def ServiceDates.fields (dates : ServiceDates) : List (String × Json) :=
  [("FchServDesde", .str dates.fchServDesde), ("FchServHasta", .str dates.fchServHasta),
   ("FchVtoPago", .str dates.fchVtoPago)]

namespace FeCaeDetRequest

/-- What every request has. -/
def ownFields (detail : FeCaeDetRequest) : List (String × Json) :=
  [("Concepto", .int detail.concepto), ("DocTipo", .int detail.docTipo),
   ("DocNro", .int detail.docNro), ("CbteDesde", .int detail.cbteDesde),
   ("CbteHasta", .int detail.cbteHasta), ("CbteFch", .str detail.cbteFch),
   ("ImpTotal", .float detail.amounts.impTotal), ("ImpTotConc", .float detail.amounts.impTotConc),
   ("ImpNeto", .float detail.amounts.impNeto), ("ImpOpEx", .float detail.amounts.impOpEx),
   ("ImpIVA", .float detail.amounts.impIva), ("ImpTrib", .float detail.amounts.impTrib),
   ("MonId", .str detail.monId), ("MonCotiz", .float detail.monCotiz),
   ("CondicionIVAReceptorId", .int detail.condicionIvaReceptorId)]

def serviceFields (detail : FeCaeDetRequest) : List (String × Json) :=
  (detail.serviceDates.map ServiceDates.fields).getD []

def ivaFields (detail : FeCaeDetRequest) : List (String × Json) :=
  if detail.iva = [] then []
  else [("Iva", .obj [("AlicIva", .arr (detail.iva.map AlicIva.json))])]

def asocFields (detail : FeCaeDetRequest) : List (String × Json) :=
  if detail.cbtesAsoc = [] then []
  else [("CbtesAsoc", .obj [("CbteAsoc", .arr (detail.cbtesAsoc.map CbteAsoc.json))])]

def json (detail : FeCaeDetRequest) : Json :=
  .obj (detail.ownFields ++ (detail.serviceFields ++ (detail.ivaFields ++ detail.asocFields)))

/-- `json.dumps(detail, indent=2, default=str)`. There is nothing in it that needs `str`,
and no amount and no rate has more than six decimals. -/
def text (detail : FeCaeDetRequest) : List Char := pretty (floatRepr 6) 2 0 detail.json

end FeCaeDetRequest

/-! ## The dict says which request it is -/

theorem alicIva_json_injective : Function.Injective AlicIva.json := by
  rintro ⟨id, baseImp, importe⟩ ⟨id', baseImp', importe'⟩ h
  simpa [AlicIva.json] using h

theorem cbteAsoc_json_injective : Function.Injective CbteAsoc.json := by
  rintro ⟨tipo, ptoVta, nro, cbteFch⟩ ⟨tipo', ptoVta', nro', cbteFch'⟩ h
  cases cbteFch <;> cases cbteFch' <;> simp_all [CbteAsoc.json]

namespace FeCaeDetRequest

variable {a b : FeCaeDetRequest}

/-- The keys of each group. -/
def serviceKeys : List String := ["FchServDesde", "FchServHasta", "FchVtoPago"]

theorem serviceFields_key {field : String × Json} (h : field ∈ a.serviceFields) :
    field.1 ∈ serviceKeys := by
  unfold serviceFields at h
  cases hdates : a.serviceDates with
  | none => simp [hdates] at h
  | some dates =>
    rw [hdates] at h
    simp only [Option.map_some, Option.getD_some, ServiceDates.fields, List.mem_cons,
      List.not_mem_nil, or_false] at h
    rcases h with rfl | rfl | rfl <;> simp [serviceKeys]

theorem ivaFields_key {field : String × Json} (h : field ∈ a.ivaFields) : field.1 ∈ ["Iva"] := by
  unfold ivaFields at h
  split at h
  · cases h
  · rw [List.mem_singleton.mp h]
    exact List.mem_singleton.mpr rfl

theorem asocFields_key {field : String × Json} (h : field ∈ a.asocFields) :
    field.1 ∈ ["CbtesAsoc"] := by
  unfold asocFields at h
  split at h
  · cases h
  · rw [List.mem_singleton.mp h]
    exact List.mem_singleton.mpr rfl

theorem asocFields_not {field : String × Json} (h : field ∈ a.asocFields) : field.1 ∉ ["Iva"] := by
  rw [List.mem_singleton.mp (asocFields_key h)]
  decide

theorem groups_not {field : String × Json} (h : field ∈ a.ivaFields ++ a.asocFields) :
    field.1 ∉ serviceKeys := by
  rcases List.mem_append.mp h with h | h
  · rw [List.mem_singleton.mp (ivaFields_key h)]
    decide
  · rw [List.mem_singleton.mp (asocFields_key h)]
    decide

theorem serviceFields_injective (h : a.serviceFields = b.serviceFields) :
    a.serviceDates = b.serviceDates := by
  unfold serviceFields at h
  rcases ha : a.serviceDates with _ | ⟨desde, hasta, pago⟩ <;>
    rcases hb : b.serviceDates with _ | ⟨desde', hasta', pago'⟩ <;>
    simp_all [ServiceDates.fields]

theorem ivaFields_injective (h : a.ivaFields = b.ivaFields) : a.iva = b.iva := by
  unfold ivaFields at h
  split at h <;> split at h
  · next ha hb => rw [ha, hb]
  · cases h
  · cases h
  · simp only [List.cons.injEq, Prod.mk.injEq, Json.obj.injEq, Json.arr.injEq, true_and, and_true] at h
    exact List.map_injective_iff.mpr alicIva_json_injective h

theorem asocFields_injective (h : a.asocFields = b.asocFields) : a.cbtesAsoc = b.cbtesAsoc := by
  unfold asocFields at h
  split at h <;> split at h
  · next ha hb => rw [ha, hb]
  · cases h
  · cases h
  · simp only [List.cons.injEq, Prod.mk.injEq, Json.obj.injEq, Json.arr.injEq, true_and, and_true] at h
    exact List.map_injective_iff.mpr cbteAsoc_json_injective h

theorem json_injective : Function.Injective json := by
  intro a b h
  obtain ⟨hown, hrest⟩ := List.append_inj (Json.obj.inj h) (by rfl)
  obtain ⟨hservices, hgroups⟩ := groups_eq (fun _ => serviceFields_key) (fun _ => serviceFields_key)
    (fun _ => groups_not) (fun _ => groups_not) hrest
  obtain ⟨hiva, hasoc⟩ := groups_eq (fun _ => ivaFields_key) (fun _ => ivaFields_key)
    (fun _ => asocFields_not) (fun _ => asocFields_not) hgroups
  have hdates := serviceFields_injective hservices
  have hentries := ivaFields_injective hiva
  have hassociated := asocFields_injective hasoc
  obtain ⟨concepto, docTipo, docNro, desde, hasta, fch, ⟨conc, neto, opEx, iva, trib, total⟩, monId,
    monCotiz, condicion, dates, entries, associated⟩ := a
  obtain ⟨concepto', docTipo', docNro', desde', hasta', fch', ⟨conc', neto', opEx', iva', trib', total'⟩,
    monId', monCotiz', condicion', dates', entries', associated'⟩ := b
  simp_all [ownFields]

/-! ## The text is read as the dict -/

/-- The amounts and the rate have at most six decimals. -/
structure InDecimals (detail : FeCaeDetRequest) : Prop where
  amounts : ∀ amount ∈ [detail.amounts.impTotConc, detail.amounts.impNeto, detail.amounts.impOpEx,
    detail.amounts.impIva, detail.amounts.impTrib, detail.amounts.impTotal],
    Multiple (1 / 10 ^ 6) amount
  monCotiz : Multiple (1 / 10 ^ 6) detail.monCotiz
  iva : ∀ entry ∈ detail.iva, Multiple (1 / 10 ^ 6) entry.baseImp ∧
    Multiple (1 / 10 ^ 6) entry.importe

theorem json_readable {detail : FeCaeDetRequest} (h : detail.InDecimals) :
    Readable (floatRepr 6) detail.json := by
  have hfloat : ∀ {x : ℚ}, Multiple (1 / 10 ^ 6) x → Readable (floatRepr 6) (.float x) :=
    fun hx => .float (scalar_float hx)
  have hamounts := h.amounts
  simp only [List.forall_mem_cons] at hamounts
  obtain ⟨hconc, hneto, hopEx, hiva, htrib, htotal, -⟩ := hamounts
  refine .obj fun field hfield => ?_
  simp only [List.mem_append] at hfield
  rcases hfield with hown | hservice | hgroup | hasoc
  · simp only [ownFields, List.mem_cons, List.not_mem_nil, or_false] at hown
    rcases hown with rfl | rfl | rfl | rfl | rfl | rfl | rfl | rfl | rfl | rfl | rfl | rfl | rfl | rfl | rfl
    · exact .int _
    · exact .int _
    · exact .int _
    · exact .int _
    · exact .int _
    · exact .str _
    · exact hfloat htotal
    · exact hfloat hconc
    · exact hfloat hneto
    · exact hfloat hopEx
    · exact hfloat hiva
    · exact hfloat htrib
    · exact .str _
    · exact hfloat h.monCotiz
    · exact .int _
  · unfold serviceFields at hservice
    cases hdates : detail.serviceDates with
    | none => simp [hdates] at hservice
    | some dates =>
      rw [hdates] at hservice
      simp only [Option.map_some, Option.getD_some, ServiceDates.fields, List.mem_cons,
        List.not_mem_nil, or_false] at hservice
      rcases hservice with rfl | rfl | rfl <;> exact .str _
  · unfold ivaFields at hgroup
    split at hgroup
    · cases hgroup
    · rw [List.mem_singleton.mp hgroup]
      refine .obj (List.forall_mem_singleton.mpr (.arr (List.forall_mem_map.mpr fun entry hentry => ?_)))
      obtain ⟨hbase, himporte⟩ := h.iva entry hentry
      refine .obj ?_
      simp only [List.forall_mem_cons, List.not_mem_nil, false_implies, implies_true, and_true]
      exact ⟨.int _, hfloat hbase, hfloat himporte⟩
  · unfold asocFields at hasoc
    split at hasoc
    · cases hasoc
    · rw [List.mem_singleton.mp hasoc]
      refine .obj (List.forall_mem_singleton.mpr (.arr (List.forall_mem_map.mpr ?_)))
      rintro ⟨tipo, ptoVta, nro, cbteFch⟩ -
      refine .obj ?_
      cases cbteFch with
      | none => simp [Readable.int]
      | some cbteFch => simp [Readable.int, Readable.str]

theorem loads_text {detail : FeCaeDetRequest} (h : detail.InDecimals) (other : FeCaeDetRequest) :
    loads detail.text = some other.json ↔ other = detail := by
  rw [text, loads_pretty (json_readable h), Option.some.injEq]
  exact ⟨fun heq => (json_injective heq).symm, fun heq => by rw [heq]⟩

end FeCaeDetRequest

/-! ## Every run -/

variable {m : Move} {v : View} {today : Date} {docTypeCode posNumber number : Nat}
  {header : FeCabReq} {detail : FeCaeDetRequest}

theorem cents_decimals {x : ℚ} (h : Multiple cent x) : Multiple (1 / 10 ^ 6) x :=
  multiple_of_le (a := 2) (by decide) h

theorem prepareRequest_inDecimals
    (h : m.prepareRequest today v docTypeCode posNumber number = .ok (header, detail)) :
    detail.InDecimals := by
  obtain ⟨-, -, -, hamounts⟩ := prepareRequest_spec h
  obtain ⟨-, hcurrency, -⟩ := prepareRequest_fields h
  have hiva := aggregateVat_aggregated (amounts_spec hamounts).iva
  refine ⟨fun amount hamount => ?_, currencyValues_decimals hcurrency, fun entry hentry => ?_⟩
  · exact cents_decimals ((amounts_addsUp hamounts).cents amount hamount)
  · rw [hiva.baseImp entry hentry, hiva.importe entry hentry]
    exact ⟨cents_decimals (floatRound_multiple _), cents_decimals (floatRound_multiple _)⟩

section Runs

variable {W : Type} {P : Platform} {s s' : Sys W} {a : Act W} [DecidableEq W]

theorem inDecimals_step (hs : Sound s)
    (hrows : AllRows (fun _ _ => True) (fun _ b => b.requestPayload.InDecimals) s)
    (h : Step P s a s') :
    AllRows (fun _ _ => True) (fun _ b => b.requestPayload.InDecimals) s' := by
  refine allRows_step hs (fun _ _ _ _ => id) (fun _ _ _ => id) ?_ hrows h
  intro t i b ht hrows' hwritten
  cases hwritten with
  | create hw hreq => exact prepareRequest_inDecimals hreq
  | outcome hw hf hview hd hev hout hc =>
    rw [hev]
    exact hrows'.attempts _ _ hview
  | reconcile hw hr =>
    rw [hr.evidence]
    exact hrows'.attempts _ _ hr.view

theorem reachable_inDecimals {ok : Sys W → Act W → Prop} (h : Reachable (system P) ok s) :
    AllRows (fun _ _ => True) (fun _ b => b.requestPayload.InDecimals) s := by
  refine reachable_inv (fun s hi => initial_allRows hi fun _ => trivial) ?_ h
  exact fun s a s' hr _ hrows h => inDecimals_step (reachable_sound hr) hrows (step_cases h)

/-- In every run, each request that left has its text on record, and the text is read as
that request and as no other. -/
theorem text_on_record (h : Reachable (system P) Always s) {t : Transmission}
    (ht : t ∈ s.arca.sent) : ∃ b : Attempt, s.db.row (.attempt t.attempt) = some b ∧
      ∀ detail : FeCaeDetRequest,
        loads b.requestPayload.text = some detail.json ↔ detail = t.detail := by
  obtain ⟨b, hb, hasked⟩ := (reachable_logged h).asked t ht
  refine ⟨b, hb, fun detail => ?_⟩
  rw [← hasked.payload]
  exact FeCaeDetRequest.loads_text ((reachable_inDecimals h).db.attempts _ b hb) detail

theorem text_on_record_sent :
    ∃ s : Sys (Fin 3), Reachable (system Office.platform) Always s ∧ ∃ t ∈ s.arca.sent,
      ∃ b : Attempt, s.db.row (.attempt t.attempt) = some b ∧ ∀ detail : FeCaeDetRequest,
        loads b.requestPayload.text = some detail.json ↔ detail = t.detail := by
  obtain ⟨s, hs, hsent⟩ := Office.reaches Always
    (Office.posted 0 0 ++ Office.recorded 0 0 0 ++ [.resume 0, .transmit 0])
    (fun s => s.arca.sent != []) (by decide +kernel)
  obtain ⟨t, ht⟩ := List.exists_mem_of_ne_nil _ (bne_iff_ne.mp hsent)
  exact ⟨s, hs, t, ht, text_on_record hs ht⟩

end Runs

end ArcaEdi
