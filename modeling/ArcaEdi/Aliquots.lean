import ArcaEdi.Amounts

/-!
# The AlicIva group

What `_l10n_ar_arca_aggregate_vat` returns depends on the total of each aliquot alone:
neither the order of the lines nor how an aliquot is divided among them matters.
-/

namespace ArcaEdi

open Raise Totals Move

/-! ## What is refused -/

def Refused (vatLines : List VatLine) : Prop :=
  ∃ message, aggregateVat vatLines = .error (.userError message)

theorem aggregateVat_ok_iff {vatLines : List VatLine} :
    (∃ iva, aggregateVat vatLines = .ok iva) ↔ ∀ line ∈ vatLines, line.aliquot ∈ aliquots := by
  have hfold : ∀ {x : Except Exn (List AlicIva)} {f : List AlicIva → List AlicIva},
      (∃ iva, (x >>= fun out => pure (f out)) = .ok iva) ↔ ∃ out, x = .ok out := by
    intro x f
    simp only [bind_eq_ok, pure_eq_ok]
    exact ⟨fun ⟨_, out, hout, _⟩ => ⟨out, hout⟩, fun ⟨out, hout⟩ => ⟨f out, out, hout, rfl⟩⟩
  unfold aggregateVat
  rw [hfold]
  refine foldlM_ok_iff fun entries line => ?_
  unfold VatLine.aliquot aliquots
  cases hid : PyText.int? line.id with
  | none => simp [throw_ne_ok]
  | some aliquotId =>
    rw [List.mem_map_of_injective (Option.some_injective _)]
    simp only [check_eq_ok, pure_eq_ok, not_not]
    exact ⟨fun ⟨_, hin, _⟩ => hin, fun hin => ⟨_, hin, rfl⟩⟩

theorem aggregateVat_raises {vatLines : List VatLine} (h : ∀ line ∈ vatLines, line.aliquot.isSome) :
    OnlyRaises (fun e => ∃ message, e = .userError message) (aggregateVat vatLines) := by
  unfold aggregateVat
  refine onlyRaises_bind.mpr ⟨onlyRaises_foldlM fun entries line hline => ?_, fun _ _ => onlyRaises_pure⟩
  obtain ⟨aliquotId, hid⟩ := Option.isSome_iff_exists.mp (h line hline)
  unfold VatLine.aliquot at hid
  simp only [hid]
  split
  · exact onlyRaises_throw.mpr ⟨_, rfl⟩
  · exact onlyRaises_pure

theorem refused_iff {vatLines : List VatLine} (h : ∀ line ∈ vatLines, line.aliquot.isSome) :
    Refused vatLines ↔ ¬ ∃ iva, aggregateVat vatLines = .ok iva := by
  constructor
  · rintro ⟨message, herror⟩ ⟨iva, hok⟩
    rw [herror] at hok
    cases hok
  · intro hnone
    cases hresult : aggregateVat vatLines with
    | ok iva => exact absurd ⟨iva, hresult⟩ hnone
    | error e =>
      obtain ⟨message, rfl⟩ := aggregateVat_raises h e hresult
      exact ⟨message, hresult⟩

/-! ## What is returned -/

/-- One entry for each aliquot of the lines, in the order of the Ids, with its totals
rounded to cents. -/
structure Aggregated (vatLines : List VatLine) (iva : List AlicIva) : Prop where
  ids : (iva.map (·.id)).Pairwise (· < ·)
  present : ∀ k, k ∈ iva.map AlicIva.aliquot ↔ k ∈ vatLines.map VatLine.aliquot
  baseImp : ∀ entry ∈ iva, entry.baseImp =
    floatRound 2 (groupTotal VatLine.aliquot (·.baseImp) entry.aliquot vatLines)
  importe : ∀ entry ∈ iva, entry.importe =
    floatRound 2 (groupTotal VatLine.aliquot (·.importe) entry.aliquot vatLines)

theorem present_add {entries : List AlicIva} {lines : List VatLine} {line : VatLine} {id : Nat}
    (h : ∀ k, k ∈ entries.map AlicIva.aliquot ↔ k ∈ lines.map VatLine.aliquot)
    (hid : line.aliquot = some (id : Int)) (k : Option Int) :
    k ∈ (addVatLine id line entries).map AlicIva.aliquot ↔
      k ∈ (lines ++ [line]).map VatLine.aliquot := by
  rw [addVatLine_aliquots, List.map_append, List.mem_append, ← h, List.map_singleton, hid,
    List.mem_singleton]
  split
  · next hold => exact ⟨Or.inl, fun hk => hk.elim (fun hk => hk) fun heq => heq ▸ hold⟩
  · rw [List.mem_append, List.mem_singleton]

theorem aggregateVat_aggregated {vatLines : List VatLine} {iva : List AlicIva}
    (h : aggregateVat vatLines = .ok iva) : Aggregated vatLines iva := by
  obtain ⟨aggregated, ⟨hholds, hpresent⟩, hiva⟩ := aggregateVat_inv
    (fun entries lines => Holds entries lines ∧
      ∀ k, k ∈ entries.map AlicIva.aliquot ↔ k ∈ lines.map VatLine.aliquot)
    ⟨holds_nil, by simp⟩ (fun _ _ _ _ hlines hid hin => ⟨holds_add hlines.1 hid hin,
      present_add hlines.2 hid⟩) h
  have hperm : iva.Perm (aggregated.map fun entry =>
      ⟨entry.id, floatRound 2 entry.baseImp, floatRound 2 entry.importe⟩) := by
    rw [hiva]
    exact List.perm_insertionSort _ _
  have hids : (iva.map AlicIva.aliquot).Perm (aggregated.map AlicIva.aliquot) := by
    have hsame := hperm.map AlicIva.aliquot
    rw [List.map_map] at hsame
    exact hsame
  have hentry : ∀ entry ∈ iva, ∃ raw ∈ aggregated,
      entry = ⟨raw.id, floatRound 2 raw.baseImp, floatRound 2 raw.importe⟩ := by
    intro entry hentry
    obtain ⟨raw, hraw, rfl⟩ := List.mem_map.mp (hperm.mem_iff.mp hentry)
    exact ⟨raw, hraw, rfl⟩
  refine ⟨?_, fun k => ?_, ?_, ?_⟩
  · have hsorted : iva.Pairwise (·.id ≤ ·.id) := hiva ▸ List.pairwise_insertionSort _ _
    have hnodup : iva.Pairwise (·.aliquot ≠ ·.aliquot) :=
      List.pairwise_map.mp (hids.nodup_iff.mpr hholds.nodup)
    refine List.pairwise_map.mpr ((hsorted.and hnodup).imp ?_)
    rintro x y ⟨hle, hne⟩
    exact lt_of_le_of_ne hle fun heq => hne (by rw [AlicIva.aliquot, AlicIva.aliquot, heq])
  · rw [hids.mem_iff, hpresent]
  · intro entry hmem
    obtain ⟨raw, hraw, rfl⟩ := hentry entry hmem
    have htotal := hholds.totals baseImp (by simp) raw.aliquot
    rw [groupTotal_of_mem hholds.nodup hraw] at htotal
    exact congrArg (floatRound 2) htotal
  · intro entry hmem
    obtain ⟨raw, hraw, rfl⟩ := hentry entry hmem
    have htotal := hholds.totals importe (by simp) raw.aliquot
    rw [groupTotal_of_mem hholds.nodup hraw] at htotal
    exact congrArg (floatRound 2) htotal

/-! ## What the result depends on -/

/-- The same aliquots, with the same totals. -/
structure SameTotals (vatLines other : List VatLine) : Prop where
  present : ∀ k, k ∈ vatLines.map VatLine.aliquot ↔ k ∈ other.map VatLine.aliquot
  totals : ∀ c ∈ [baseImp, importe], ∀ k,
    groupTotal VatLine.aliquot c.line k vatLines = groupTotal VatLine.aliquot c.line k other

theorem Aggregated.nodup {vatLines : List VatLine} {iva : List AlicIva}
    (h : Aggregated vatLines iva) : iva.Nodup :=
  (List.pairwise_map.mp h.ids).imp fun hlt heq => hlt.ne (congrArg _ heq)

theorem Aggregated.subset {vatLines other : List VatLine} {iva iva' : List AlicIva}
    (hsame : SameTotals vatLines other) (h : Aggregated vatLines iva) (h' : Aggregated other iva') :
    iva ⊆ iva' := by
  intro entry hentry
  have hthere : entry.aliquot ∈ iva'.map AlicIva.aliquot := by
    rw [h'.present, ← hsame.present, ← h.present]
    exact List.mem_map_of_mem hentry
  obtain ⟨entry', hentry', haliquot⟩ := List.mem_map.mp hthere
  have hid : entry'.id = entry.id := by
    simpa [AlicIva.aliquot] using haliquot
  have hbase : entry'.baseImp = entry.baseImp := by
    rw [h'.baseImp entry' hentry', h.baseImp entry hentry, haliquot]
    exact congrArg (floatRound 2) (hsame.totals ArcaEdi.baseImp (by simp) _).symm
  have himporte : entry'.importe = entry.importe := by
    rw [h'.importe entry' hentry', h.importe entry hentry, haliquot]
    exact congrArg (floatRound 2) (hsame.totals ArcaEdi.importe (by simp) _).symm
  obtain rfl : entry' = entry := by
    cases entry
    cases entry'
    simp_all
  exact hentry'

theorem SameTotals.symm {vatLines other : List VatLine} (h : SameTotals vatLines other) :
    SameTotals other vatLines :=
  ⟨fun k => (h.present k).symm, fun c hc k => (h.totals c hc k).symm⟩

theorem Aggregated.unique {vatLines other : List VatLine} {iva iva' : List AlicIva}
    (hsame : SameTotals vatLines other) (h : Aggregated vatLines iva) (h' : Aggregated other iva') :
    iva = iva' := by
  have hperm : iva.Perm iva' := (List.perm_ext_iff_of_nodup h.nodup h'.nodup).mpr fun entry =>
    ⟨fun hentry => h.subset hsame h' hentry, fun hentry => h'.subset hsame.symm h hentry⟩
  refine hperm.eq_of_pairwise ?_ (List.pairwise_map.mp h.ids) (List.pairwise_map.mp h'.ids)
  intro x y _ _ hxy hyx
  exact absurd hxy (lt_asymm hyx)

theorem aggregateVat_congr {vatLines other : List VatLine} {iva : List AlicIva}
    (hsame : SameTotals vatLines other) (h : aggregateVat vatLines = .ok iva) :
    aggregateVat other = .ok iva := by
  have hread : ∀ k ∈ vatLines.map VatLine.aliquot, k ∈ aliquots := by
    intro k hk
    obtain ⟨line, hline, rfl⟩ := List.mem_map.mp hk
    exact aggregateVat_ok_iff.mp ⟨iva, h⟩ line hline
  have hother : ∀ line ∈ other, line.aliquot ∈ aliquots := fun line hline =>
    hread _ ((hsame.present _).mpr (List.mem_map_of_mem hline))
  obtain ⟨iva', h'⟩ := aggregateVat_ok_iff.mpr hother
  rw [h', (aggregateVat_aggregated h).unique hsame (aggregateVat_aggregated h')]

theorem sameTotals_perm {vatLines other : List VatLine} (h : vatLines.Perm other) :
    SameTotals vatLines other :=
  ⟨fun _ => (h.map _).mem_iff, fun _ _ _ => groupTotal_perm h⟩

/-- Parts of a line: the same Id, and amounts that add up to those of the line. -/
structure Parts (line : VatLine) (parts : List VatLine) : Prop where
  some : parts ≠ []
  aliquot : ∀ part ∈ parts, part.aliquot = line.aliquot
  baseImp : (parts.map (·.baseImp)).sum = line.baseImp
  importe : (parts.map (·.importe)).sum = line.importe

theorem Parts.sum {line : VatLine} {parts : List VatLine} {c : Component} (h : Parts line parts)
    (hc : c ∈ [ArcaEdi.baseImp, ArcaEdi.importe]) : (parts.map c.line).sum = c.line line := by
  simp only [List.mem_cons, List.not_mem_nil, or_false] at hc
  rcases hc with rfl | rfl
  · exact h.baseImp
  · exact h.importe

theorem sameTotals_parts {before after parts : List VatLine} {line : VatLine} (h : Parts line parts) :
    SameTotals (before ++ line :: after) (before ++ (parts ++ after)) := by
  refine ⟨fun k => ?_, fun c hc k => ?_⟩
  · have hparts : k ∈ parts.map VatLine.aliquot ↔ k = line.aliquot := by
      obtain ⟨part, hpart⟩ := List.exists_mem_of_ne_nil _ h.some
      constructor
      · intro hk
        obtain ⟨other, hother, rfl⟩ := List.mem_map.mp hk
        exact h.aliquot other hother
      · rintro rfl
        exact h.aliquot part hpart ▸ List.mem_map_of_mem hpart
    simp only [List.map_append, List.map_cons, List.mem_append, List.mem_cons, hparts]
  · rw [groupTotal_append, groupTotal_append, groupTotal_append, groupTotal_cons,
      groupTotal_of_forall h.aliquot, h.sum hc]

/-- The list is refused exactly for an aliquot that ARCA does not accept. Otherwise the
group is the totals of its aliquots, for any order of the lines and any division of one. -/
theorem vat_aggregated {vatLines : List VatLine} (h : ∀ line ∈ vatLines, line.aliquot.isSome) :
    (Refused vatLines ↔
      ∃ line ∈ vatLines, ∃ aliquotId, line.aliquot = some aliquotId ∧ aliquotId ∉ vatAliquotIds) ∧
    (¬ Refused vatLines → ∃ iva, aggregateVat vatLines = .ok iva ∧ Aggregated vatLines iva ∧
      (∀ other, vatLines.Perm other → aggregateVat other = .ok iva) ∧
      ∀ before line after parts, vatLines = before ++ line :: after → Parts line parts →
        aggregateVat (before ++ (parts ++ after)) = .ok iva) := by
  have hmem : ∀ aliquotId, some aliquotId ∈ aliquots ↔ aliquotId ∈ vatAliquotIds := fun aliquotId =>
    List.mem_map_of_injective (Option.some_injective _)
  rw [refused_iff h, aggregateVat_ok_iff]
  refine ⟨?_, fun haccepted => ?_⟩
  · constructor
    · intro hrefused
      obtain ⟨line, hline, hout⟩ := not_forall₂.mp hrefused
      obtain ⟨aliquotId, hid⟩ := Option.isSome_iff_exists.mp (h line hline)
      exact ⟨line, hline, aliquotId, hid, by rwa [hid, hmem] at hout⟩
    · rintro ⟨line, hline, aliquotId, hid, hout⟩ hall
      exact hout ((hmem aliquotId).mp (hid ▸ hall line hline))
  · obtain ⟨iva, hiva⟩ := aggregateVat_ok_iff.mpr (not_not.mp haccepted)
    refine ⟨iva, hiva, aggregateVat_aggregated hiva,
      fun other hperm => aggregateVat_congr (sameTotals_perm hperm) hiva, ?_⟩
    rintro before line after parts rfl hparts
    exact aggregateVat_congr (sameTotals_parts hparts) hiva

theorem vat_aggregated_twice :
    ∃ iva, aggregateVat [⟨"5", 100, 21⟩, ⟨"4", 200, 21⟩, ⟨"5", 1, 21 / 100⟩] = .ok iva ∧
      Aggregated [⟨"5", 100, 21⟩, ⟨"4", 200, 21⟩, ⟨"5", 1, 21 / 100⟩] iva := by
  have hread : ∀ line ∈ [(⟨"5", 100, 21⟩ : VatLine), ⟨"4", 200, 21⟩, ⟨"5", 1, 21 / 100⟩],
      line.aliquot.isSome := by decide +kernel
  obtain ⟨hrefused, hgroup⟩ := vat_aggregated hread
  have haccepted : ∀ line ∈ [(⟨"5", 100, 21⟩ : VatLine), ⟨"4", 200, 21⟩, ⟨"5", 1, 21 / 100⟩],
      line.aliquot ∈ aliquots := by decide +kernel
  obtain ⟨iva, hiva, haggregated, -⟩ := hgroup fun h =>
    (refused_iff hread).mp h (aggregateVat_ok_iff.mpr haccepted)
  exact ⟨iva, hiva, haggregated⟩

end ArcaEdi
