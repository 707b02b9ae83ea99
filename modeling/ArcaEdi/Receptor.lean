import ArcaEdi.Cuit
import ArcaEdi.System

/-!
# Who an invoice is reported for

`_l10n_ar_arca_customer_document` leaves by three returns and three refusals, ordered
by the identification code, the class of the document and the tax number.
-/

namespace ArcaEdi

open Raise

def IsUserError (e : Exn) : Prop := ∃ message, e = .userError message

/-- The tax number without hyphens, spaces and dots. -/
def Partner.rawVat (partner : Partner) : String :=
  String.ofList ((partner.vat.getD "").toList.filter fun ch => ch ≠ '-' && ch ≠ ' ' && ch ≠ '.')

/-- The code of the identification, empty where there is none. -/
def Partner.afipCode (partner : Partner) : String :=
  (partner.identificationType.bind (·.afipCode)).getD ""

def ClassAM (docTypeCode : Nat) : Prop := docTypeCode ∈ classAMDocumentTypes

instance (docTypeCode : Nat) : Decidable (ClassAM docTypeCode) :=
  inferInstanceAs (Decidable (docTypeCode ∈ classAMDocumentTypes))

/-! ## The exits, in their order -/

section Exits

variable {m : Move} {docTypeCode : Nat} {docType number : Int}

theorem customerDocument_blank (h : m.partner.afipCode = "" ∨ m.partner.rawVat = "") :
    (ClassAM docTypeCode ∧ ∃ message, m.customerDocument docTypeCode = .error (.userError message)) ∨
      ¬ ClassAM docTypeCode ∧ m.customerDocument docTypeCode = .ok (docTypeUnidentified, 0) := by
  unfold Move.customerDocument
  rw [if_pos (by exact h)]
  by_cases hclass : ClassAM docTypeCode
  · rw [if_pos (by simpa [ClassAM] using hclass)]
    exact .inl ⟨hclass, _, rfl⟩
  · rw [if_neg (by simpa [ClassAM] using hclass)]
    exact .inr ⟨hclass, rfl⟩

variable (h : ¬ (m.partner.afipCode = "" ∨ m.partner.rawVat = ""))

include h

theorem customerDocument_unread (hcode : PyText.int? m.partner.afipCode = none) :
    m.customerDocument docTypeCode = .error .valueError := by
  unfold Move.customerDocument
  rw [if_neg (by exact h)]
  unfold Partner.afipCode at hcode
  simp only [hcode]
  rfl

theorem customerDocument_unidentified
    (hcode : PyText.int? m.partner.afipCode = some docTypeUnidentified) :
    m.customerDocument docTypeCode = .ok (docTypeUnidentified, 0) := by
  unfold Move.customerDocument
  rw [if_neg (by exact h)]
  unfold Partner.afipCode at hcode
  simp only [hcode, ↓reduceIte]
  rfl

variable (hcode : PyText.int? m.partner.afipCode = some docType) (hne : docType ≠ docTypeUnidentified)

include hcode hne

theorem customerDocument_notCuit (hclass : ClassAM docTypeCode) (hcuit : docType ≠ docTypeCuit) :
    ∃ message, m.customerDocument docTypeCode = .error (.userError message) := by
  unfold Move.customerDocument
  rw [if_neg (by exact h)]
  unfold Partner.afipCode at hcode
  simp only [hcode, if_neg hne]
  rw [if_pos (by simpa [ClassAM] using ⟨hclass, hcuit⟩)]
  exact ⟨_, rfl⟩

variable (hclass : ClassAM docTypeCode → docType = docTypeCuit)

include hclass

theorem customerDocument_letters (hdigits : PyText.allDigits m.partner.rawVat = false) :
    ∃ message, m.customerDocument docTypeCode = .error (.userError message) := by
  unfold Move.customerDocument
  rw [if_neg (by exact h)]
  unfold Partner.afipCode at hcode
  unfold Partner.rawVat at hdigits
  simp only [hcode, if_neg hne, hdigits]
  rw [if_neg (by simpa [ClassAM] using hclass)]
  exact ⟨_, rfl⟩

theorem customerDocument_digits (hdigits : PyText.allDigits m.partner.rawVat = true) :
    m.customerDocument docTypeCode = match PyText.int? m.partner.rawVat with
      | none => .error .valueError
      | some number => .ok (docType, number) := by
  unfold Move.customerDocument
  rw [if_neg (by exact h)]
  unfold Partner.afipCode at hcode
  unfold Partner.rawVat at *
  simp only [hcode, if_neg hne, hdigits]
  rw [if_neg (by simpa [ClassAM] using hclass)]
  simp only [Bool.not_true, Bool.false_eq_true, ↓reduceIte]
  cases PyText.int? _ <;> rfl

end Exits

/-! ## What they should be -/

/-- Nothing but a UserError is raised, a document of class A or M names a CUIT, and an
unidentified receptor has no number. -/
structure Reported (isCuit : Int → Prop) (docTypeCode : Nat) (x : Except Exn (Int × Int)) : Prop where
  raises : OnlyRaises IsUserError x
  classAM : ∀ docType number, x = .ok (docType, number) → ClassAM docTypeCode →
    docType = docTypeCuit ∧ isCuit number
  unidentified : ∀ number, x = .ok (docTypeUnidentified, number) → number = 0

/-- The code of the identification is a number, and not that of the unidentified on a
document of class A or M. A tax number of digits is one that `int` reads, and a CUIT on
such a document. -/
structure Identifiable (isCuit : Int → Prop) (docTypeCode : Nat) (partner : Partner) (docType : Int) :
    Prop where
  code : PyText.int? partner.afipCode = some docType
  identified : docType = docTypeUnidentified → ¬ ClassAM docTypeCode
  number : docType ≠ docTypeUnidentified → (ClassAM docTypeCode → docType = docTypeCuit) →
    PyText.allDigits partner.rawVat → ∃ number, PyText.int? partner.rawVat = some number ∧
      (ClassAM docTypeCode → isCuit number)

section Reported

variable {isCuit : Int → Prop} {m : Move} {docTypeCode : Nat} {docType number : Int}

theorem reported_userError (message : String) :
    Reported isCuit docTypeCode (.error (.userError message)) where
  raises := by simp [IsUserError]
  classAM := nofun
  unidentified := nofun

theorem not_reported_valueError : ¬ Reported isCuit docTypeCode (.error .valueError) := by
  intro h
  obtain ⟨message, hmessage⟩ := h.raises _ rfl
  cases hmessage

theorem reported_ok :
    Reported isCuit docTypeCode (.ok (docType, number)) ↔
      (ClassAM docTypeCode → docType = docTypeCuit ∧ isCuit number) ∧
        (docType = docTypeUnidentified → number = 0) := by
  constructor
  · intro h
    refine ⟨h.classAM _ _ rfl, ?_⟩
    rintro rfl
    exact h.unidentified _ rfl
  · rintro ⟨hclass, hunidentified⟩
    refine ⟨by simp, ?_, ?_⟩
    · rintro _ _ ⟨⟩ hAM
      exact hclass hAM
    · rintro _ ⟨⟩
      exact hunidentified rfl

section Identified

variable (hfilled : ¬ (m.partner.afipCode = "" ∨ m.partner.rawVat = ""))
  (hcode : PyText.int? m.partner.afipCode = some docType) (hne : docType ≠ docTypeUnidentified)

include hfilled hcode hne

theorem reported_cuit (hcuit : ClassAM docTypeCode → docType = docTypeCuit) :
    Reported isCuit docTypeCode (m.customerDocument docTypeCode) ↔
      Identifiable isCuit docTypeCode m.partner docType := by
  cases hdigits : PyText.allDigits m.partner.rawVat with
  | false =>
    obtain ⟨message, hexit⟩ := customerDocument_letters hfilled hcode hne hcuit hdigits
    rw [hexit]
    refine iff_of_true (reported_userError message) ⟨hcode, fun heq => absurd heq hne, ?_⟩
    intro _ _ htrue
    rw [hdigits] at htrue
    cases htrue
  | true =>
    rw [customerDocument_digits hfilled hcode hne hcuit hdigits]
    cases hnumber : PyText.int? m.partner.rawVat with
    | none =>
      refine iff_of_false not_reported_valueError fun h => ?_
      obtain ⟨number, hread, -⟩ := h.number hne hcuit hdigits
      rw [hnumber] at hread
      cases hread
    | some number =>
      rw [reported_ok]
      constructor
      · rintro ⟨hclass, -⟩
        exact ⟨hcode, fun heq => absurd heq hne,
          fun _ _ _ => ⟨number, hnumber, fun hAM => (hclass hAM).2⟩⟩
      · intro h
        obtain ⟨n, hread, hAM⟩ := h.number hne hcuit hdigits
        obtain rfl := Option.some.inj (hread.symm.trans hnumber)
        exact ⟨fun hclass => ⟨hcuit hclass, hAM hclass⟩, fun heq => absurd heq hne⟩

theorem reported_identified :
    Reported isCuit docTypeCode (m.customerDocument docTypeCode) ↔
      Identifiable isCuit docTypeCode m.partner docType := by
  by_cases hcuit : ClassAM docTypeCode → docType = docTypeCuit
  · exact reported_cuit hfilled hcode hne hcuit
  · rw [Classical.not_imp] at hcuit
    obtain ⟨message, hexit⟩ := customerDocument_notCuit hfilled hcode hne hcuit.1 hcuit.2
    rw [hexit]
    refine iff_of_true (reported_userError message) ⟨hcode, fun heq => absurd heq hne, ?_⟩
    exact fun _ hclass => absurd (hclass hcuit.1) hcuit.2

end Identified

theorem identifiable_read (hcode : PyText.int? m.partner.afipCode = some docType) :
    (∃ d, Identifiable isCuit docTypeCode m.partner d) ↔
      Identifiable isCuit docTypeCode m.partner docType := by
  refine ⟨?_, fun h => ⟨_, h⟩⟩
  rintro ⟨d, h⟩
  obtain rfl := Option.some.inj (h.code.symm.trans hcode)
  exact h

/-- Class A and M documents always name a CUIT, and no exception but a UserError is
raised, exactly for the partners that are identifiable, whatever is called a CUIT. -/
theorem customer_document_reported (isCuit : Int → Prop) (m : Move) (docTypeCode : Nat) :
    Reported isCuit docTypeCode (m.customerDocument docTypeCode) ↔
      (m.partner.afipCode ≠ "" → m.partner.rawVat ≠ "" →
        ∃ docType, Identifiable isCuit docTypeCode m.partner docType) := by
  by_cases hblank : m.partner.afipCode = "" ∨ m.partner.rawVat = ""
  · refine iff_of_true ?_ fun hcode hvat => absurd hblank (by simp [hcode, hvat])
    rcases customerDocument_blank hblank with ⟨-, message, hexit⟩ | ⟨hclass, hexit⟩
    · rw [hexit]
      exact reported_userError message
    · rw [hexit]
      exact reported_ok.mpr ⟨fun hAM => absurd hAM hclass, fun _ => rfl⟩
  have hfilled : m.partner.afipCode ≠ "" ∧ m.partner.rawVat ≠ "" := not_or.mp hblank
  simp only [hfilled.1, hfilled.2, ne_eq, not_false_eq_true, forall_const]
  cases hcode : PyText.int? m.partner.afipCode with
  | none =>
    rw [customerDocument_unread hblank hcode]
    refine iff_of_false not_reported_valueError ?_
    rintro ⟨docType, hidentifiable⟩
    rw [hidentifiable.code] at hcode
    cases hcode
  | some docType =>
    rw [identifiable_read hcode]
    by_cases hne : docType = docTypeUnidentified
    · subst hne
      rw [customerDocument_unidentified hblank hcode, reported_ok]
      constructor
      · rintro ⟨hclass, -⟩
        exact ⟨hcode, fun _ hAM => absurd (hclass hAM).1 (by decide), fun hne => absurd rfl hne⟩
      · rintro ⟨-, hclass, -⟩
        exact ⟨fun hAM => absurd hAM (hclass rfl), fun _ => rfl⟩
    · exact reported_identified hblank hcode hne

end Reported

namespace Office

/-- Invoice 0 for a partner with this identification. -/
def identified (afipCode vat : String) : Move :=
  { invoice 0 1 with
    partner :=
      { displayName := "Cliente"
        vat := some vat
        identificationType := some ⟨some afipCode, "Identificación"⟩
        responsibility := some ⟨some "1", "IVA Responsable Inscripto"⟩ } }

end Office

/-- A class A invoice for an unidentified receptor, a superscript among the digits, and
a code that is no number. Any number counts as a CUIT here. -/
theorem customer_document_misreported :
    ¬ Reported (fun _ => True) 1 ((Office.identified "99" "20-12345678-6").customerDocument 1) ∧
      ¬ Reported (fun _ => True) 6 ((Office.identified "96" "1234567²").customerDocument 6) ∧
      ¬ Reported (fun _ => True) 6 ((Office.identified "DNI" "12345678").customerDocument 6) := by
  have hclassA : (Office.identified "99" "20-12345678-6").customerDocument 1 =
      .ok (docTypeUnidentified, 0) := by decide +kernel
  have hsuperscript : (Office.identified "96" "1234567²").customerDocument 6 = .error .valueError := by
    decide +kernel
  have hletters : (Office.identified "DNI" "12345678").customerDocument 6 = .error .valueError := by
    decide +kernel
  rw [hclassA, hsuperscript, hletters]
  exact ⟨fun h => absurd (h.classAM _ _ rfl (by decide)).1 (by decide), not_reported_valueError,
    not_reported_valueError⟩

end ArcaEdi
