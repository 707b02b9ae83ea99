import ArcaEdi.Lib.Raise
import ArcaEdi.Lib.Totals
import ArcaEdi.System

/-!
# Rounded amounts

The header of a request and its AlicIva group are rounded on their own, the
header once for each component and the group once for each aliquot.
-/

namespace ArcaEdi

open Raise Totals Move

/-! ## Rounding to cents -/

def cent : ℚ := 1 / 100

theorem cent_pos : 0 < cent := by norm_num [cent]

theorem floatRound_roundTo (digits : Nat) (x : ℚ) :
    floatRound digits x = roundTo (1 / 10 ^ digits) x := by
  have hround : ∀ y : ℚ, ((y * 10 ^ digits + 1 / 2).floor : ℚ) / 10 ^ digits =
      round (y / (1 / 10 ^ digits)) * (1 / 10 ^ digits) := by
    intro y
    have hscale : y / (1 / 10 ^ digits) = y * 10 ^ digits := by rw [div_div_eq_mul_div, div_one]
    have hfloor : (y * 10 ^ digits + 1 / 2).floor = ⌊y * 10 ^ digits + 1 / 2⌋ := rfl
    rw [round_eq, hscale, hfloor]
    ring
  unfold floatRound roundTo
  split
  · next h => simp only [hround, abs_of_neg h]
  · next h => simp only [hround, abs_of_nonneg (not_lt.mp h)]

theorem floatRound_eq (x : ℚ) : floatRound 2 x = roundTo cent x := by
  rw [floatRound_roundTo, cent]
  norm_num

theorem floatRound_multiple (x : ℚ) : Multiple cent (floatRound 2 x) := by
  rw [floatRound_eq]
  exact roundTo_multiple

theorem floatRound_of_multiple {x : ℚ} (h : Multiple cent x) : floatRound 2 x = x := by
  rw [floatRound_eq, roundTo_of_multiple cent_pos h]

/-! ## The AlicIva group -/

/-- The aliquot of a line of `_get_vat`, as `int(line["Id"])` reads it. -/
def VatLine.aliquot (line : VatLine) : Option Int := PyText.int? line.id

def AlicIva.aliquot (entry : AlicIva) : Option Int := some entry.id

def aliquots : List (Option Int) := vatAliquotIds.map some

/-- BaseImp or Importe, of a line and of an entry. -/
structure Component where
  line : VatLine → ℚ
  entry : AlicIva → ℚ

def baseImp : Component := ⟨VatLine.baseImp, AlicIva.baseImp⟩
def importe : Component := ⟨VatLine.importe, AlicIva.importe⟩

/-- The entries hold the lines that were read, one entry for each aliquot. -/
structure Holds (entries : List AlicIva) (lines : List VatLine) : Prop where
  nodup : (entries.map AlicIva.aliquot).Nodup
  accepted : ∀ entry ∈ entries, entry.aliquot ∈ aliquots
  read : ∀ line ∈ lines, line.aliquot ∈ aliquots
  totals : ∀ c ∈ [baseImp, importe], ∀ k,
    groupTotal AlicIva.aliquot c.entry k entries = groupTotal VatLine.aliquot c.line k lines

theorem holds_nil : Holds [] [] := by
  refine ⟨List.nodup_nil, ?_, ?_, fun _ _ _ => rfl⟩ <;> simp

theorem addVatLine_aliquots {id : Nat} {line : VatLine} {entries : List AlicIva} :
    (addVatLine id line entries).map AlicIva.aliquot =
      if some (id : Int) ∈ entries.map AlicIva.aliquot then entries.map AlicIva.aliquot
      else entries.map AlicIva.aliquot ++ [some (id : Int)] := by
  induction entries with
  | nil => simp [addVatLine, AlicIva.aliquot]
  | cons entry rest ih =>
    unfold addVatLine
    split
    · next h => simp [AlicIva.aliquot, h]
    · next h =>
      have hne : some (id : Int) ≠ entry.aliquot := by
        simp only [AlicIva.aliquot, ne_eq, Option.some.injEq, Nat.cast_inj]
        exact fun heq => h heq.symm
      rw [List.map_cons, ih]
      simp only [List.map_cons, List.mem_cons, hne, false_or]
      split <;> rfl

theorem addVatLine_total {id : Nat} {line : VatLine} {entries : List AlicIva} {c : Component}
    (hc : c ∈ [baseImp, importe]) (k : Option Int) :
    groupTotal AlicIva.aliquot c.entry k (addVatLine id line entries) =
      groupTotal AlicIva.aliquot c.entry k entries + if some (id : Int) = k then c.line line else 0 := by
  have hadd : ∀ entry : AlicIva, c.entry ⟨entry.id, entry.baseImp + line.baseImp,
      entry.importe + line.importe⟩ = c.entry entry + c.line line := by
    intro entry
    simp only [List.mem_cons, List.not_mem_nil, or_false] at hc
    rcases hc with rfl | rfl <;> rfl
  induction entries with
  | nil =>
    have hfirst : c.entry ⟨id, line.baseImp, line.importe⟩ = c.line line := by
      simp only [List.mem_cons, List.not_mem_nil, or_false] at hc
      rcases hc with rfl | rfl <;> rfl
    simp [addVatLine, AlicIva.aliquot, hfirst]
  | cons entry rest ih =>
    unfold addVatLine
    split
    · next h =>
      subst h
      by_cases hk : entry.aliquot = k
      · rw [groupTotal_cons_of_eq (by exact hk), groupTotal_cons_of_eq hk, hadd,
          if_pos (show some _ = k from hk)]
        ring
      · rw [groupTotal_cons_of_ne (by exact hk), groupTotal_cons_of_ne hk,
          if_neg (show ¬ some _ = k from hk), add_zero]
    · next h =>
      rw [groupTotal_cons, groupTotal_cons, ih]
      ring

theorem holds_add {entries : List AlicIva} {lines : List VatLine} {line : VatLine} {id : Nat}
    (h : Holds entries lines) (hid : line.aliquot = some (id : Int)) (hin : some (id : Int) ∈ aliquots) :
    Holds (addVatLine id line entries) (lines ++ [line]) := by
  have hids : (addVatLine id line entries).map AlicIva.aliquot = _ := addVatLine_aliquots
  refine ⟨?_, ?_, ?_, ?_⟩
  · rw [hids]
    split
    · exact h.nodup
    · next hnew => exact List.concat_eq_append ▸ h.nodup.concat hnew
  · intro entry hentry
    have hmem : entry.aliquot ∈ (addVatLine id line entries).map AlicIva.aliquot :=
      List.mem_map_of_mem hentry
    rw [hids] at hmem
    have hold : ∀ k ∈ entries.map AlicIva.aliquot, k ∈ aliquots := by
      intro k hk
      obtain ⟨old, hold, rfl⟩ := List.mem_map.mp hk
      exact h.accepted old hold
    split at hmem
    · exact hold _ hmem
    · rcases List.mem_append.mp hmem with hmem | hmem
      · exact hold _ hmem
      · rw [List.mem_singleton.mp hmem]
        exact hin
  · intro l hl
    rcases List.mem_append.mp hl with hl | hl
    · exact h.read l hl
    · rw [List.mem_singleton.mp hl, hid]
      exact hin
  · intro c hc k
    rw [addVatLine_total hc, h.totals c hc, groupTotal_append, groupTotal_cons, groupTotal_nil, hid,
      add_zero]

theorem aggregateVat_inv {vatLines : List VatLine} {iva : List AlicIva}
    (holds : List AlicIva → List VatLine → Prop) (hnil : holds [] [])
    (hadd : ∀ entries lines line (id : Nat), holds entries lines → line.aliquot = some (id : Int) →
      some (id : Int) ∈ aliquots → holds (addVatLine id line entries) (lines ++ [line]))
    (h : aggregateVat vatLines = .ok iva) :
    ∃ aggregated, holds aggregated vatLines ∧ iva = (aggregated.map fun entry =>
      (⟨entry.id, floatRound 2 entry.baseImp, floatRound 2 entry.importe⟩ : AlicIva)).insertionSort
        (·.id ≤ ·.id) := by
  unfold aggregateVat at h
  obtain ⟨aggregated, hfold, h⟩ := bind_eq_ok.mp h
  obtain rfl := pure_eq_ok.mp h
  refine ⟨aggregated, foldlM_inv holds ?_ hnil hfold, rfl⟩
  intro entries lines line next hholds hline
  split at hline
  · next aliquotId hid =>
    obtain ⟨haccepted, hline⟩ := check_eq_ok.mp hline
    obtain rfl := pure_eq_ok.mp hline
    have hin : aliquotId ∈ vatAliquotIds := not_not.mp haccepted
    have hall : ∀ n ∈ vatAliquotIds, 0 ≤ n := by decide
    have hnat : ((aliquotId.toNat : Nat) : Int) = aliquotId := Int.toNat_of_nonneg (hall _ hin)
    exact hadd entries lines line aliquotId.toNat hholds (by rw [hnat]; exact hid)
      (List.mem_map_of_mem (by rwa [hnat]))
  · exact absurd hline throw_ne_ok

theorem aggregateVat_holds {vatLines : List VatLine} {iva : List AlicIva}
    (h : aggregateVat vatLines = .ok iva) :
    ∃ aggregated, Holds aggregated vatLines ∧
      iva.Perm (aggregated.map fun entry =>
        ⟨entry.id, floatRound 2 entry.baseImp, floatRound 2 entry.importe⟩) := by
  obtain ⟨aggregated, hholds, rfl⟩ :=
    aggregateVat_inv Holds holds_nil (fun _ _ _ _ hholds => holds_add hholds) h
  exact ⟨aggregated, hholds, List.perm_insertionSort (fun a b : AlicIva => a.id ≤ b.id) _⟩

theorem aggregateVat_sum {vatLines : List VatLine} {iva : List AlicIva} {c : Component}
    (h : aggregateVat vatLines = .ok iva) (hc : c ∈ [baseImp, importe]) :
    (iva.map c.entry).sum =
        ((aliquots.map fun k => groupTotal VatLine.aliquot c.line k vatLines).map (roundTo cent)).sum ∧
      (aliquots.map fun k => groupTotal VatLine.aliquot c.line k vatLines).sum =
        (vatLines.map c.line).sum := by
  have hnodup : aliquots.Nodup := by decide
  obtain ⟨aggregated, hholds, hperm⟩ := aggregateVat_holds h
  have hrounded : ∀ entry : AlicIva, c.entry ⟨entry.id, floatRound 2 entry.baseImp,
      floatRound 2 entry.importe⟩ = roundTo cent (c.entry entry) := by
    intro entry
    simp only [List.mem_cons, List.not_mem_nil, or_false] at hc
    rcases hc with rfl | rfl <;> exact floatRound_eq _
  refine ⟨?_, sum_groupTotal hnodup hholds.read⟩
  calc _ = ((aggregated.map fun entry => (⟨entry.id, floatRound 2 entry.baseImp,
          floatRound 2 entry.importe⟩ : AlicIva)).map c.entry).sum :=
        (hperm.map _).sum_eq
    _ = (aggregated.map fun entry => roundTo cent (c.entry entry)).sum := by
        simp only [List.map_map, Function.comp_def, hrounded]
    _ = (aliquots.map fun k => roundTo cent (groupTotal AlicIva.aliquot c.entry k aggregated)).sum :=
        sum_map_groups (roundTo_zero cent_pos) hnodup hholds.nodup hholds.accepted
    _ = _ := by
        simp only [List.map_map, Function.comp_def, hholds.totals c hc]

/-! ## The header -/

/-- What is sent of each total, in cents. Class C sends zero for three of them. -/
structure Sent (m : Move) (docTypeCode : Nat) (a : Amounts) (iva : List AlicIva) : Prop where
  impTotConc : a.impTotConc =
    floatRound 2 (if docTypeCode ∈ classCDocumentTypes then 0 else m.lines.vatUntaxedBaseAmount)
  impNeto : a.impNeto = floatRound 2 m.lines.vatTaxableAmount
  impOpEx : a.impOpEx =
    floatRound 2 (if docTypeCode ∈ classCDocumentTypes then 0 else m.lines.vatExemptBaseAmount)
  impIva : a.impIva =
    floatRound 2 (if docTypeCode ∈ classCDocumentTypes then 0 else m.lines.vatAmount)
  impTrib : a.impTrib = floatRound 2 m.lines.notVatTaxesAmount
  impTotal : a.impTotal = a.impTotConc + a.impNeto + a.impOpEx + a.impIva + a.impTrib
  checked : m.checkTotal a.impTotal = .ok ()
  iva : aggregateVat (if docTypeCode ∈ classCDocumentTypes then [] else m.lines.vatLines) = .ok iva

theorem amounts_spec {m : Move} {docTypeCode : Nat} {a : Amounts} {iva : List AlicIva}
    (h : m.amounts docTypeCode = .ok (a, iva)) : Sent m docTypeCode a iva := by
  unfold Move.amounts at h
  simp only [bind_eq_ok, pure_eq_ok, decide_eq_true_eq] at h
  obtain ⟨⟨⟩, hchecked, aliquots, hiva, heq⟩ := h
  obtain ⟨rfl, rfl⟩ := Prod.mk.inj heq
  refine ⟨rfl, rfl, rfl, rfl, rfl, floatRound_of_multiple ?_, hchecked, hiva⟩
  exact ((((floatRound_multiple _).add (floatRound_multiple _)).add (floatRound_multiple _)).add
    (floatRound_multiple _)).add (floatRound_multiple _)

/-- The totals of the aliquots have residues that add up to less than half a cent. -/
def ResiduesSettle (c : Component) (vatLines : List VatLine) : Prop :=
  Settles cent (vatLines.map c.line).sum
    ((aliquots.map fun k => groupTotal VatLine.aliquot c.line k vatLines).map (residue cent)).sum

instance (c : Component) (vatLines : List VatLine) : Decidable (ResiduesSettle c vatLines) :=
  inferInstanceAs (Decidable (Settles _ _ _))

theorem floatRound_sum {vatLines : List VatLine} {iva : List AlicIva} {c : Component}
    (h : aggregateVat vatLines = .ok iva) (hc : c ∈ [baseImp, importe]) :
    floatRound 2 (vatLines.map c.line).sum = (iva.map c.entry).sum ↔ ResiduesSettle c vatLines := by
  obtain ⟨hsent, htotal⟩ := aggregateVat_sum h hc
  rw [floatRound_eq, hsent, ← htotal, roundTo_sum cent_pos, htotal]
  rfl

/-- Where the lines are consistent, the AlicIva group adds up to the header exactly
when the residues of its aliquots settle. -/
theorem header_adds_up {m : Move} {docTypeCode : Nat} {a : Amounts} {iva : List AlicIva}
    (hclass : docTypeCode ∉ classCDocumentTypes)
    (hvat : m.lines.vatAmount = (m.lines.vatLines.map (·.importe)).sum)
    (htaxable : m.lines.vatTaxableAmount = (m.lines.vatLines.map (·.baseImp)).sum)
    (h : m.amounts docTypeCode = .ok (a, iva)) :
    a.impIva = (iva.map (·.importe)).sum ∧ a.impNeto = (iva.map (·.baseImp)).sum ↔
      ResiduesSettle importe m.lines.vatLines ∧ ResiduesSettle baseImp m.lines.vatLines := by
  have hsent := amounts_spec h
  have hiva := hsent.iva
  rw [if_neg hclass] at hiva
  rw [hsent.impIva, hsent.impNeto, if_neg hclass, hvat, htaxable]
  exact and_congr (floatRound_sum hiva (c := importe) (by simp))
    (floatRound_sum hiva (c := baseImp) (by simp))

theorem residuesSettle_of_cents {c : Component} {vatLines : List VatLine}
    (h : ∀ line ∈ vatLines, Multiple cent (c.line line)) : ResiduesSettle c vatLines := by
  have hzero : ∀ r ∈ (aliquots.map fun k => groupTotal VatLine.aliquot c.line k vatLines).map
      (residue cent), r = 0 := by
    intro r hr
    obtain ⟨total, htotal, rfl⟩ := List.mem_map.mp hr
    obtain ⟨k, -, rfl⟩ := List.mem_map.mp htotal
    refine sub_eq_zero.mpr (roundTo_of_multiple cent_pos (multiple_sum fun x hx => ?_)).symm
    obtain ⟨line, hline, rfl⟩ := List.mem_map.mp hx
    exact h line (List.mem_of_mem_filter hline)
  rw [ResiduesSettle, List.sum_eq_zero hzero]
  unfold Settles
  split <;> norm_num [cent]

namespace Office

/-- An invoice with two aliquots, and its VAT and total as they are given. -/
def mixed (vatLines : List VatLine) (vat total : ℚ) : Move :=
  { invoice 0 1 with lines := ⟨300, vat, 0, 0, 0, vatLines, total⟩ }

def inCents : List VatLine := [⟨"5", 100, 21⟩, ⟨"4", 200, 21⟩]

/-- Each aliquot has four tenths of a cent more. -/
def belowCents : List VatLine := [⟨"5", 100, 21004 / 1000⟩, ⟨"4", 200, 21004 / 1000⟩]

end Office

theorem header_adds_up_cents :
    (42 : ℚ) = ([⟨4, 200, 21⟩, ⟨5, 100, 21⟩].map AlicIva.importe).sum ∧
      (300 : ℚ) = ([⟨4, 200, 21⟩, ⟨5, 100, 21⟩].map AlicIva.baseImp).sum :=
  (header_adds_up (m := Office.mixed Office.inCents 42 342) (a := ⟨0, 300, 0, 42, 0, 342⟩)
    (show 6 ∉ classCDocumentTypes by decide) (by decide +kernel) (by decide +kernel)
    (by decide +kernel)).mpr
    ⟨by decide +kernel, by decide +kernel⟩

/-- The header reports 42.01 of VAT, and the aliquots 42.00. -/
theorem header_does_not_add_up :
    ¬ ∀ (m : Move) (docTypeCode : Nat) (a : Amounts) (iva : List AlicIva),
      docTypeCode ∉ classCDocumentTypes →
      m.lines.vatAmount = (m.lines.vatLines.map (·.importe)).sum →
      m.lines.vatTaxableAmount = (m.lines.vatLines.map (·.baseImp)).sum →
      m.amounts docTypeCode = .ok (a, iva) →
        a.impIva = (iva.map (·.importe)).sum ∧ a.impNeto = (iva.map (·.baseImp)).sum := by
  intro h
  have hsums := h (Office.mixed Office.belowCents (42008 / 1000) (342008 / 1000)) 6
    ⟨0, 300, 0, 4201 / 100, 0, 34201 / 100⟩ [⟨4, 200, 21⟩, ⟨5, 100, 21⟩] (by decide)
    (by decide +kernel) (by decide +kernel) (by decide +kernel)
  exact absurd hsums.1 (by decide +kernel)

end ArcaEdi
