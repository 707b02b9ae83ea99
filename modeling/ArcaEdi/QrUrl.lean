import Mathlib.Data.Bool.AllAny
import ArcaEdi.Lib.Base64
import ArcaEdi.Lib.FloatText
import ArcaEdi.Lib.QueryString
import ArcaEdi.QrCode
import ArcaEdi.Quotation

/-!
# The URL of the QR

The report puts the URL into the query of a barcode as it is. A base64 text may have a
plus in it, which a query reads as a blank.
-/

namespace ArcaEdi

open Raise Totals Json FloatText QueryString

/-! ## `_l10n_ar_arca_build_qr_url` -/

def qrBaseUrl : String := "https://www.afip.gob.ar/fe/qr/?p="

namespace QrPayload

/-- The dict that `_l10n_ar_arca_qr_payload` returns. -/
def fields (qr : QrPayload) : List (String × Json) :=
  [("ver", .int qr.ver), ("fecha", .str qr.fecha), ("cuit", .int qr.cuit), ("ptoVta", .int qr.ptoVta),
   ("tipoCmp", .int qr.tipoCmp), ("nroCmp", .int qr.nroCmp), ("importe", .float qr.importe),
   ("moneda", .str qr.moneda), ("ctz", .float qr.ctz), ("tipoDocRec", .int qr.tipoDocRec),
   ("nroDocRec", .int qr.nroDocRec), ("tipoCodAut", .str qr.tipoCodAut), ("codAut", .int qr.codAut)]

/-- `json.dumps`. No amount and no rate has more than six decimals. -/
def text (qr : QrPayload) : List Char := dumps (floatRepr 6) (.obj qr.fields)

def encoded (qr : QrPayload) : List Char := Base64.encode (utf8 qr.text)

end QrPayload

def buildQrUrl (today : Date) (v : View) (m : Nat) : Except Exn String := do
  let payload ← qrPayload today v m
  return qrBaseUrl ++ String.ofList payload.encoded

def barcodeFront : String := "/report/barcode/?barcode_type=QR&value="
def barcodeBack : String := "&width=200&height=200"

/-- The source of the image, in `report_invoice.xml`. -/
def barcodeSource (value : String) : String := barcodeFront ++ value ++ barcodeBack

/-! ## What the payload is made of -/

/-- A character that base64 writes without its last two symbols, wherever it stands. -/
def Carried (c : Char) : Prop := c.toNat < 128 ∧ c.toNat % 64 ≠ 62 ∧ c.toNat % 64 ≠ 63

instance (c : Char) : Decidable (Carried c) := inferInstanceAs (Decidable (_ ∧ _))

theorem alphanum_range {c : Char} (h : c.isAlphanum) : 48 ≤ c.toNat ∧ c.toNat ≤ 57 ∨
    65 ≤ c.toNat ∧ c.toNat ≤ 90 ∨ 97 ≤ c.toNat ∧ c.toNat ≤ 122 := by
  have hrange : (65 ≤ c.toNat ∧ c.toNat ≤ 90 ∨ 97 ≤ c.toNat ∧ c.toNat ≤ 122) ∨
      48 ≤ c.toNat ∧ c.toNat ≤ 57 := by
    change (((c.val ≥ 'A'.val ∧ c.val ≤ 'Z'.val : Bool) || (c.val ≥ 'a'.val && c.val ≤ 'z'.val)) ||
      (c.val ≥ '0'.val && c.val ≤ '9'.val)) = true at h
    simpa [UInt32.le_iff_toNat_le] using h
  omega

theorem carried_alphanum {c : Char} (h : c.isAlphanum) : Carried c := by
  have hrange := alphanum_range h
  unfold Carried
  omega

theorem alphanum_of_digit {c : Char} (h : c.isDigit) : c.isAlphanum := by
  simp [Char.isAlphanum, h]

theorem carried_float {c : Char} (h : FloatChar c) : Carried c := by
  rcases h with h | h
  · exact carried_alphanum (alphanum_of_digit h)
  · simp only [List.mem_cons, List.not_mem_nil, or_false] at h
    rcases h with rfl | rfl | rfl | rfl <;> decide

/-- A text of letters, digits and dashes. -/
def Word (s : String) : Prop := ∀ c ∈ s.toList, c.isAlphanum ∨ c = '-'

instance (s : String) : Decidable (Word s) :=
  List.decidableBAll _ _

theorem Word.plain {s : String} (h : Word s) : Plain s := by
  intro c hc
  rcases h c hc with h | rfl
  · have hrange := alphanum_range h
    refine ⟨by omega, by omega, ?_, ?_⟩
    · rintro rfl
      revert h
      decide
    · rintro rfl
      revert h
      decide
  · decide

theorem Word.carried {s : String} (h : Word s) : ∀ c ∈ s.toList, Carried c := by
  intro c hc
  rcases h c hc with h | rfl
  · exact carried_alphanum h
  · decide

theorem multiple_of_le {a b : Nat} {x : ℚ} (hab : a ≤ b) (h : Multiple (1 / 10 ^ a) x) :
    Multiple (1 / 10 ^ b) x := by
  obtain ⟨n, rfl⟩ := h
  obtain ⟨k, rfl⟩ := Nat.exists_eq_add_of_le hab
  refine ⟨n * 10 ^ k, ?_⟩
  push_cast
  rw [pow_add]
  field_simp

theorem floatRound_decimals (digits : Nat) (x : ℚ) :
    Multiple (1 / 10 ^ digits) (floatRound digits x) := by
  rw [floatRound_roundTo]
  exact roundTo_multiple

/-- What the invoice puts into the texts and the amounts of the payload. -/
structure QrPayload.Written (qr : QrPayload) : Prop where
  fecha : Word qr.fecha
  tipoCodAut : Word qr.tipoCodAut
  importe : Multiple (1 / 10 ^ 6) qr.importe
  ctz : Multiple (1 / 10 ^ 6) qr.ctz

theorem word_iso (d : Date) : Word d.iso := by
  have hdigits : ∀ width n, ∀ c ∈ (PyText.zeroPad width n).toList, c.isAlphanum := fun width n c hc =>
    alphanum_of_digit (PyText.zeroPad_isDigit hc)
  intro c hc
  simp only [Date.iso, String.toList_append, List.mem_append, Nat.toString_eq_ofList_toDigits,
    String.toList_ofList] at hc
  rcases hc with (((hc | hc) | hc) | hc) | hc
  · exact .inl (alphanum_of_digit (Nat.isDigit_of_mem_toDigits (by decide) (by decide) hc))
  · exact .inr (by simpa using hc)
  · exact .inl (hdigits _ _ c hc)
  · exact .inr (by simpa using hc)
  · exact .inl (hdigits _ _ c hc)

theorem currencyValues_decimals {move : Move} {code : String} {rate : ℚ}
    (h : move.currencyValues = .ok (code, rate)) : Multiple (1 / 10 ^ 6) rate := by
  by_cases hsame : move.currency.id = move.companyCurrencyId
  · rw [currencyValues_same hsame] at h
    obtain ⟨-, rfl⟩ := Prod.mk.inj (Except.ok.inj h)
    exact multiple_one
  · obtain ⟨-, rfl⟩ := currencyValues_other hsame h
    exact floatRound_decimals 6 _

theorem qrPayload_written {today : Date} {v : View} {m : Nat} {qr : QrPayload}
    (h : qrPayload today v m = .ok qr) : qr.Written := by
  unfold qrPayload at h
  simp only [bind_eq_ok] at h
  obtain ⟨_, -, ⟨_, _⟩, -, h⟩ := h
  split at h
  · simp only [bind_eq_ok] at h
    obtain ⟨⟨code, rate⟩, hcurrency, ⟨_, _⟩, -, h⟩ := h
    split at h
    · split at h
      · obtain rfl := pure_eq_ok.mp h
        have hword : Word "E" := by decide
        exact ⟨word_iso _, hword, multiple_of_le (by decide) (floatRound_decimals 2 _),
          currencyValues_decimals hcurrency⟩
      · exact absurd h throw_ne_ok
    · exact absurd h throw_ne_ok
  · exact absurd h throw_ne_ok

/-! ## The way through the barcode -/

/-- A field that is read again, and whose characters base64 carries plainly. -/
structure CarriedField (field : String × Json) : Prop where
  plain : PlainField (floatRepr 6) field
  key : ∀ c ∈ quoted field.1, Carried c
  value : ∀ c ∈ dumps (floatRepr 6) field.2, Carried c

theorem carried_quoted {s : String} (h : Word s) : ∀ c ∈ quoted s, Carried c := fun _ hc =>
  quoted_chars (by decide) h.plain h.carried hc

theorem carriedField_int {key : String} (hkey : Word key) (n : Int) : CarriedField (key, .int n) := by
  refine ⟨⟨hkey.plain, .int n⟩, carried_quoted hkey, fun c hc => ?_⟩
  rw [dumps] at hc
  rcases PyText.toString_chars hc with h | rfl
  · exact carried_alphanum (alphanum_of_digit h)
  · decide

theorem carriedField_str {key s : String} (hkey : Word key) (hs : Word s) :
    CarriedField (key, .str s) := by
  refine ⟨⟨hkey.plain, .str hs.plain⟩, carried_quoted hkey, fun c hc => ?_⟩
  rw [dumps] at hc
  exact carried_quoted hs c hc

theorem carriedField_float {key : String} {x : ℚ} (hkey : Word key) (hx : Multiple (1 / 10 ^ 6) x) :
    CarriedField (key, .float x) := by
  refine ⟨⟨hkey.plain, scalar_float hx⟩, carried_quoted hkey, fun c hc => ?_⟩
  rw [dumps] at hc
  exact carried_float (floatRepr_chars hc)

section Carrying

variable {qr : QrPayload}

theorem carried_fields (h : qr.Written) (hmoneda : ∀ c ∈ qr.moneda.toList, c.isAlphanum) :
    ∀ field ∈ qr.fields, CarriedField field := by
  have hword : Word qr.moneda := fun c hc => .inl (hmoneda c hc)
  simp only [QrPayload.fields, List.forall_mem_cons]
  exact ⟨carriedField_int (by decide) _, carriedField_str (by decide) h.fecha,
    carriedField_int (by decide) _, carriedField_int (by decide) _, carriedField_int (by decide) _,
    carriedField_int (by decide) _, carriedField_float (by decide) h.importe,
    carriedField_str (by decide) hword, carriedField_float (by decide) h.ctz,
    carriedField_int (by decide) _, carriedField_int (by decide) _,
    carriedField_str (by decide) h.tipoCodAut, carriedField_int (by decide) _, by simp⟩

theorem carried_text (h : ∀ field ∈ qr.fields, CarriedField field) : ∀ c ∈ qr.text, Carried c :=
  dumps_chars (List.all_iff_forall_prop.mp (by decide))
    fun field hfield => ⟨(h field hfield).key, (h field hfield).value⟩

theorem encoded_alphanum (h : ∀ c ∈ qr.text, Carried c) :
    ∀ c ∈ qr.encoded, c = '=' ∨ c.isAlphanum := by
  intro c hc
  refine Base64.encode_alphanum (fun b hb => ?_) hc
  obtain ⟨d, hd, hcode⟩ := mem_utf8 (fun c hc => (h c hc).1) hb
  obtain ⟨hascii, h62, h63⟩ := h d hd
  rw [Base64.Marked, hcode, not_or]
  exact ⟨hascii, h62, h63⟩

theorem loads_text (h : ∀ field ∈ qr.fields, CarriedField field) :
    loads qr.text = some (.obj qr.fields) :=
  loads_dumps (by simp [QrPayload.fields]) fun field hfield => (h field hfield).plain

/-- `base64.b64decode` and `json.loads` of what a URL has after its base. -/
def decodePayload (encoded : List Char) : Option Json := do
  let bytes ← Base64.decode encoded
  let text ← ofUtf8 bytes
  loads text.toList

theorem decodePayload_encoded (h : ∀ field ∈ qr.fields, CarriedField field) :
    decodePayload qr.encoded = some (.obj qr.fields) := by
  have htext : ofUtf8 (utf8 qr.text) = some (String.ofList qr.text) := by
    simpa using ofUtf8_utf8 (String.ofList qr.text)
  rw [decodePayload, QrPayload.encoded, Base64.decode_encode]
  simp only [Option.bind_eq_bind, Option.bind_some, htext, String.toList_ofList, loads_text h]

end Carrying

/-- What a query has a use for. -/
def queryMarks : List Char := ['+', '%', '&', '#']

theorem barcodeFront_eq : barcodeFront.toList = "/report/barcode/".toList ++
    '?' :: ("barcode_type=QR".toList ++ '&' :: ("value".toList ++ ['='])) := by decide +kernel

theorem barcodeBack_eq : barcodeBack.toList = '&' :: "width=200&height=200".toList := by
  decide +kernel

theorem barcodeSource_toList (value : List Char) :
    (barcodeSource (String.ofList value)).toList = barcodeFront.toList ++ value ++ barcodeBack.toList := by
  rw [barcodeSource, String.toList_append, String.toList_append, String.toList_ofList]

theorem queryOf_barcodeSource {value : List Char} (h : ∀ c ∈ value, c ∉ queryMarks) :
    queryOf (barcodeSource (String.ofList value)).toList = "barcode_type=QR".toList ++
      '&' :: (("value".toList ++ '=' :: value) ++ '&' :: "width=200&height=200".toList) := by
  have hfragment : ∀ c ∈ barcodeFront.toList ++ value ++ barcodeBack.toList, decide (c ≠ '#') = true := by
    have hfront : '#' ∉ barcodeFront.toList := by decide +kernel
    have hback : '#' ∉ barcodeBack.toList := by decide +kernel
    intro c hc
    rw [decide_eq_true_eq]
    rintro rfl
    rcases List.mem_append.mp hc with hc | hc
    · rcases List.mem_append.mp hc with hc | hc
      · exact hfront hc
      · exact h _ hc (by decide)
    · exact hback hc
  rw [queryOf, barcodeSource_toList, List.takeWhile_eq_self_iff.mpr hfragment, barcodeFront_eq,
    barcodeBack_eq]
  simp only [List.append_assoc, List.cons_append, List.nil_append]
  rw [(takeWhile_append _ (List.all_iff_forall_prop.mp (by decide)) (by decide)).2, List.drop_one,
    List.tail_cons]

theorem barcodeSource_value {value : List Char} (h : ∀ c ∈ value, c ∉ queryMarks) :
    arg? (barcodeSource (String.ofList value)).toList "value" = some (String.ofList value) := by
  have hmarks : ∀ c ∈ value, c ≠ '+' ∧ c ≠ '%' ∧ c ≠ '&' := by
    intro c hc
    have hnot := h c hc
    simp only [queryMarks, List.mem_cons, List.not_mem_nil, or_false, not_or] at hnot
    exact ⟨hnot.1, hnot.2.1, hnot.2.2.1⟩
  have hsep : '&' ∉ "value".toList ++ '=' :: value := by
    intro hmem
    rcases List.mem_append.mp hmem with hmem | hmem
    · exact absurd hmem (by decide)
    · rcases List.mem_cons.mp hmem with hmem | hmem
      · exact absurd hmem (by decide)
      · exact (hmarks _ hmem).2.2 rfl
  have hfirst : argument "barcode_type=QR".toList = (some "barcode_type", some "QR") :=
    @argument_plain "barcode_type".toList "QR".toList (List.all_iff_forall_prop.mp (by decide))
      (List.all_iff_forall_prop.mp (by decide))
  have hsecond : argument ("value".toList ++ '=' :: value) =
      (some "value", some (String.ofList value)) :=
    argument_plain (List.all_iff_forall_prop.mp (by decide))
      fun c hc => ⟨(hmarks c hc).1, (hmarks c hc).2.1⟩
  rw [arg?, queryOf_barcodeSource h, split_append (by decide), split_append hsep, List.map_cons,
    List.map_cons, hfirst, hsecond]
  rfl

/-- The URL comes through the query as it is, and what is read of it is the payload. -/
structure Survives (qr : QrPayload) (url : String) : Prop where
  built : url = qrBaseUrl ++ String.ofList qr.encoded
  plain : ∀ c ∈ qr.encoded, c ≠ '+' ∧ c ≠ '%' ∧ c ≠ '&'
  value : arg? (barcodeSource url).toList "value" = some url
  payload : decodePayload qr.encoded = some (.obj qr.fields)

theorem qr_survives {today : Date} {v : View} {m : Nat} {qr : QrPayload}
    (h : qrPayload today v m = .ok qr) (hmoneda : ∀ c ∈ qr.moneda.toList, c.isAlphanum) :
    ∃ url, buildQrUrl today v m = .ok url ∧ Survives qr url := by
  have hfields := carried_fields (qrPayload_written h) hmoneda
  have hencoded := encoded_alphanum (carried_text hfields)
  have hmarks : ∀ c ∈ qr.encoded, c ∉ queryMarks := by
    intro c hc hmark
    simp only [queryMarks, List.mem_cons, List.not_mem_nil, or_false] at hmark
    rcases hencoded c hc with rfl | halnum
    · revert hmark
      decide
    · rcases hmark with rfl | rfl | rfl | rfl <;> exact absurd halnum (by decide)
  refine ⟨qrBaseUrl ++ String.ofList qr.encoded, by rw [buildQrUrl, h]; rfl, rfl, ?_, ?_,
    decodePayload_encoded hfields⟩
  · intro c hc
    have hnot := hmarks c hc
    simp only [queryMarks, List.mem_cons, List.not_mem_nil, or_false, not_or] at hnot
    exact ⟨hnot.1, hnot.2.1, hnot.2.2.1⟩
  · have hbase : ∀ c ∈ qrBaseUrl.toList, c ∉ queryMarks := List.all_iff_forall_prop.mp (by decide)
    have hurl : qrBaseUrl ++ String.ofList qr.encoded =
        String.ofList (qrBaseUrl.toList ++ qr.encoded) := by simp
    rw [hurl]
    refine barcodeSource_value fun c hc => ?_
    exact (List.mem_append.mp hc).elim (hbase c) (hmarks c)

namespace Office

/-- The QR of invoice 0 with its CAE. -/
def printed : QrPayload :=
  { fecha := "2026-01-15", cuit := 20123456786, ptoVta := 1, tipoCmp := 6, nroCmp := 1, importe := 121,
    moneda := "PES", ctz := 1, tipoDocRec := 99, nroDocRec := 0, codAut := 74000000000001 }

end Office

theorem qr_survives_printed :
    ∃ url, buildQrUrl ⟨2026, 1, 16⟩ (Office.totalledRows 121 Office.withCae) 0 = .ok url ∧
      Survives Office.printed url :=
  qr_survives (by decide +kernel) (List.all_iff_forall_prop.mp (by decide +kernel))

end ArcaEdi
