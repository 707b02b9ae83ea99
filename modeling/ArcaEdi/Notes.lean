import ArcaEdi.Printed
import ArcaEdi.Requests
import ArcaEdi.Vouchers

/-!
# Credit and debit notes

A note names the invoice that it adjusts by what is printed on it, and nothing checks
that ARCA knows that invoice. Where it is authorized when the note is asked for, the note
names a voucher that ARCA holds.
-/

namespace ArcaEdi

open Snapshot Runs Raise

/-! ## What attempts say of their invoices -/

/-- The invoice and what each of its live attempts recorded. -/
def Attests (φ : Move → Evidence → Prop) (v : View) (m : Nat) : Prop :=
  ∀ i b, LiveAttempt v m i b → φ (v (.move m)) b.toEvidence

variable {W : Type} {P : Platform} {s s' : Sys W} {a : Act W} {φ ψ : Move → Evidence → Prop}

/-- The property holds of all live attempts, in all that is committed or seen. -/
structure AttestsAll (φ : Move → Evidence → Prop) (s : Sys W) : Prop where
  db : ∀ m, Attests φ s.db.row m
  views : ∀ t, Live s t → ∀ m, Attests φ t.view m

theorem attests_mono {v : View} {m : Nat} (h : Attests φ v m) (hφ : ∀ move e, φ move e → ψ move e) :
    Attests ψ v m :=
  fun i b hb => hφ _ _ (h i b hb)

theorem attestsAll_mono (h : AttestsAll φ s) (hφ : ∀ move e, φ move e → ψ move e) : AttestsAll ψ s :=
  ⟨fun m => attests_mono (h.db m) hφ, fun t ht m => attests_mono (h.views t ht m) hφ⟩

theorem attests_local : Local (Attests φ) := by
  intro A B m hAB hA i b hb
  have hrow : A (.attempt i) = some b := by
    rw [hAB.rows (.attempt i) (.inr (by rw [hb.row]; exact guard_attempt hb.move)), hb.row]
  rw [← hAB.root]
  exact hA i b ⟨hrow, hb.move, hb.live⟩

/-- It does not read the fields that the module writes on the invoice. -/
def Stable (φ : Move → Evidence → Prop) : Prop :=
  ∀ move e st, φ move e → φ { move with toArcaStatus := st } e

section Writes

variable {t t' : DbTx} (hφ : Stable φ)

include hφ

theorem attests_pairWrite {i m : Nat} {b : Attempt} {st : ArcaStatus} (h : ∀ m, Attests φ t.view m)
    (hold : ∀ a, t.view (.attempt i) = some a → a.moveId = some m) (hb : b.moveId = some m)
    (hnew : φ (t.view (.move m)) b.toEvidence) : ∀ m', Attests φ (pairWrite t i b m st).view m' := by
  intro m'
  by_cases hm : m' = m
  · subst hm
    intro j c hc
    have hrow := hc.row
    rw [pairWrite_move_self]
    by_cases hj : j = i
    · subst hj
      rw [pairWrite_attempt_self] at hrow
      cases hrow
      exact hφ _ _ st hnew
    · rw [pairWrite_attempt_ne hj] at hrow
      exact hφ _ _ st (h m' j c ⟨hrow, hc.move, hc.live⟩)
  · exact attests_local _ _ m' (sameGroup_pairWrite hm hold hb) (h m')

theorem attests_write_move {m : Nat} {v : Move} (hagree : Agree t.view m) (hmatched : Matched t.view m)
    (h : Attests φ t.view m) (hv : MoveWrite NotProcessing (t.view (.move m)) v) :
    Attests φ (t.write (.move m) v).view m := by
  intro i b hb
  have hlive : LiveAttempt t.view m i b := by
    refine ⟨?_, hb.move, hb.live⟩
    rw [← hb.row, write_view_ne _ _ (by simp)]
  have hposted := (hmatched i b hlive).posted
  have hold := h i b hlive
  have hst := hagree.state i b hlive
  rw [write_view_self]
  generalize (t.view (.move m) : Move) = old at hv hold hst hposted
  cases hv with
  | post hd => simp [hposted] at hd
  | edit hd => simp [hposted] at hd
  | mark hn => exact hφ _ _ _ hold
  | draft ha hu hp =>
    cases hs : old.arcaState with
    | authorized => exact absurd hs ha
    | uncertain => exact absurd hs hu
    | processing => exact absurd hs hp
    | notRequired | pending | rejected => simp [hs, expected] at hst

theorem attests_user {now : Nat} {K : Nat → Company → Prop} (hagree : ∀ m, Agree t.view m)
    (hmatched : ∀ m, Matched t.view m) (h : ∀ m, Attests φ t.view m)
    (hu : UserWrites now NotProcessing K t t') : ∀ m, Attests φ t'.view m := by
  induction hu with
  | refl => exact h
  | tail hprev hu ih =>
    intro m
    cases hu with
    | company | journal | certificate =>
      exact attests_local _ _ m (sameGroup_write (by simp) (by simp)) (ih m)
    | @move m' v hv =>
      by_cases hm : m = m'
      · subst hm
        exact attests_write_move hφ (agree_user hagree hprev m)
          (matched_user hagree hmatched hprev m) (ih m) hv
      · exact attests_local _ _ m (sameGroup_write (by simpa using Ne.symm hm) (by simp)) (ih m)

/-- What is to be shown of an attempt when it is created. -/
def CreatesAttested (P : Platform) (φ : Move → Evidence → Prop) (s : Sys W) (a : Act W) : Prop :=
  ∀ w reply se m key t c header detail, a = .lastAuthorized w reply →
    s.worker w = ⟨se, .request m key (.asking t c)⟩ →
    (t.view (.move m) : Move).prepareRequest (P.today s.clock) t.view c.seq.documentTypeCode
      c.seq.posNumber c.number = .ok (header, detail) →
    φ (t.view (.move m)) (newAttempt s.clock t.view m c detail).toEvidence

theorem attests_writes (hs : Sound s) (hag : Agreed s) (hok : keepsInvoices s a = true)
    (hma : MatchedAll s) (hte : AttestsAll φ s) (hcreate : CreatesAttested P φ s a)
    (hw : Writes P s a t t') : ∀ m, Attests φ t'.view m := by
  have ht := hte.views t hw.live
  cases hw with
  | @user w t t' op hw h =>
    refine attests_user hφ (K := fun _ _ => True) (hag.views t (live_session (congrArg Worker.session hw)))
      (hma.views t (live_session (congrArg Worker.session hw))) ht
      (user_spec ?_ (fun _ _ _ => trivial) h)
    rintro m rfl hp
    simp [keepsInvoices, hw, hp] at hok
  | @create w reply se m key last t t' c r hw h =>
    obtain ⟨header, detail, hreq, -, rfl⟩ := create_spec h
    exact attests_pairWrite hφ ht (fun c hc => by rw [asking_fresh hs hw] at hc; cases hc) rfl
      (hcreate w reply se m key t c header detail rfl hw hreq)
  | @outcome a w se m key i durationMs t t' r stage result hw hf h =>
    obtain ⟨-, b, hb, hd⟩ := made_of_finishes hs hw hf
    obtain ⟨b', st, rfl, hev, -, -⟩ := outcome_spec hb h
    obtain ⟨c, hc⟩ := hma.own w m i t (by rw [hw]; exact hf.inFlight)
    obtain rfl : c = b := Option.some.inj (hc.row.symm.trans hb)
    refine attests_pairWrite hφ ht (row_moveId hb hd.move) ((congrArg Evidence.moveId hev).trans hd.move) ?_
    rw [hev]
    exact ht m i c hc
  | reconcile hw h =>
    obtain ⟨b, m, k, env, cuit, found, b', st, hr⟩ :=
      reconcile_spec (attempt_has_move hs (live_of_target hw)) h
    obtain rfl := hr.write
    have hlive : LiveAttempt t.view m _ b :=
      ⟨hr.view, hr.move, by simp [AttemptState.isLive, hr.isOpen]⟩
    refine attests_pairWrite hφ ht (row_moveId hr.view hr.move)
      ((congrArg Evidence.moveId hr.evidence).trans hr.move) ?_
    rw [hr.evidence]
    exact ht m _ b hlive

variable [DecidableEq W]

theorem attestsAll_step (hs : Sound s) (hag : Agreed s) (hok : keepsInvoices s a = true)
    (hma : MatchedAll s) (hte : AttestsAll φ s) (hcreate : CreatesAttested P φ s a) (h : Step P s a s') :
    AttestsAll φ s' := by
  obtain ⟨hdb, hviews⟩ := groups_step attests_local hs h
    (fun t t' hw _ => attests_writes hφ hs hag hok hma hte hcreate hw) hte.db hte.views
  exact ⟨hdb, hviews⟩

end Writes

theorem initial_attestsAll (hi : Initial s) : AttestsAll φ s := by
  refine ⟨fun m i b hb => ?_, fun t ht => absurd ht (initial_not_live hi t)⟩
  have hrow := hb.row
  rw [hi.attempts i] at hrow
  cases hrow

/-! ### The date -/

/-- The request has the date of the invoice. -/
def DatedBy (move : Move) (e : Evidence) : Prop :=
  ∀ day ∈ move.invoiceDate, e.requestPayload.cbteFch = day.compact

theorem datedBy_created : CreatesAttested P DatedBy s a := by
  intro w reply se m key t c header detail _ _ hreq day hday
  obtain ⟨-, -, hdate⟩ := prepareRequest_fields hreq
  rw [hday, Option.getD_some] at hdate
  exact hdate

/-! ## What stays -/

variable [DecidableEq W]

/-- What a snapshot has as authorized is so still. -/
def Lasting (s : Sys W) : Prop :=
  ∀ t, Live s t → ∀ m, (t.snap.row (.move m) : Move).arcaState = .authorized →
    StaysAuthorized (t.snap.row (.move m)) (s.db.row (.move m))

omit [DecidableEq W] in
theorem StaysAuthorized.trans {old mid new : Move} (h : StaysAuthorized old mid)
    (h' : StaysAuthorized mid new) : StaysAuthorized old new :=
  ⟨h'.state, h'.cae.trans h.cae, h'.caeDueDate.trans h.caeDueDate⟩

theorem lasting_step (hs : Sound s) (hfin : Final s) (hl : Lasting s) (h : Step P s a s') :
    Lasting s' := by
  have hsnaps := (views_step (D := fun _ => True) (T := fun t => ∀ m,
      (t.snap.row (.move m) : Move).arcaState = .authorized →
        StaysAuthorized (t.snap.row (.move m)) (s.db.row (.move m))) hs h
    (fun m hm => ⟨hm, rfl, rfl⟩) (fun k new m hm => ⟨hm, rfl, rfl⟩)
    (fun t t' hw ht => by rw [writes_snap hs hw]; exact ht) (fun _ _ _ _ => trivial) trivial hl).2
  intro t ht m hm
  have hold := hsnaps t ht m hm
  exact hold.trans (authorized_step hs hfin h hold.state)

/-! ## The voucher that a note names -/

/-- The invoice that a note adjusts. -/
def Move.adjusted? (m : Move) : Option Nat := m.reversedEntryId.orElse fun _ => m.debitOriginId

/-- ARCA holds the voucher that is named, which invoice `o` asked for under the note's CUIT. -/
structure NamesVoucher (s : Sys W) (note : Evidence) (associated : CbteAsoc) (o i : Nat) (b : Attempt)
    (c : Coordinates) (v : Voucher) : Prop where
  row : s.db.row (.attempt i) = some b
  move : b.moveId = some o
  issuerCuit : b.issuerCuit = note.issuerCuit
  coordinates : b.coordinates = some c
  tipo : associated.tipo = c.line.cbteTipo
  ptoVta : associated.ptoVta = c.line.ptoVta
  nro : associated.nro = c.number
  cbteFch : ∀ day ∈ associated.cbteFch, day = b.requestPayload.cbteFch
  voucher : s.arca.voucher c = some v
  authorized : (s.db.row (.move o) : Move).arcaState = .authorized
  cae : (s.db.row (.move o) : Move).cae = some v.cae

/-- Each document that the request names is a voucher of the invoice that the note adjusts. -/
def NamesVouchers (s : Sys W) (move : Move) (note : Evidence) : Prop :=
  ∀ associated ∈ note.requestPayload.cbtesAsoc, ∃ o i b c v, move.adjusted? = some o ∧
    NamesVoucher s note associated o i b c v

omit [DecidableEq W] in
theorem namesVouchers_stable : Stable (NamesVouchers s) := fun _ _ _ h => h

theorem namesVouchers_step {move : Move} {note : Evidence} (hs : Sound s) (hfin : Final s)
    (h : Step P s a s') (hn : NamesVouchers s move note) : NamesVouchers s' move note := by
  intro associated hassociated
  obtain ⟨o, i, b, c, v, ho, hb⟩ := hn associated hassociated
  obtain ⟨b', hrow, hev, -⟩ := (sound_onward hs h).later i b hb.row
  have hstays := authorized_step hs hfin h hb.authorized
  exact ⟨o, i, b', c, v, ho, {
    row := hrow
    move := (congrArg Evidence.moveId hev).trans hb.move
    issuerCuit := (congrArg Evidence.issuerCuit hev).trans hb.issuerCuit
    coordinates := (congrArg Evidence.coordinates hev).trans hb.coordinates
    tipo := hb.tipo
    ptoVta := hb.ptoVta
    nro := hb.nro
    cbteFch := fun day hday => by rw [hev]; exact hb.cbteFch day hday
    voucher := voucher_step h hb.voucher
    authorized := hstays.state
    cae := hstays.cae.trans hb.cae }⟩

theorem associatedDocuments_spec {v : View} {m : Move} {docTypeCode : Nat} {l : List CbteAsoc}
    {associated : CbteAsoc} (h : m.associatedDocuments v docTypeCode = .ok l) (ha : associated ∈ l) :
    ∃ o, docTypeCode ∈ noteDocumentTypes ∧ m.adjusted? = some o ∧
      PyText.intField? ((v (.move o) : Move).documentType.bind (·.code)) = some associated.tipo ∧
      (v (.move o) : Move).documentNumberParts = .ok (associated.ptoVta, associated.nro) ∧
      associated.cbteFch = (v (.move o) : Move).invoiceDate.map (·.compact) := by
  unfold Move.associatedDocuments at h
  split at h
  · obtain rfl := pure_eq_ok.mp h
    cases ha
  · next hnote =>
    split at h
    · next o ho =>
      simp only at h
      split at h
      · next code hcode =>
        rw [check_eq_ok] at h
        obtain ⟨-, h⟩ := h
        obtain ⟨⟨pos, number⟩, hparts, h⟩ := bind_eq_ok.mp h
        obtain rfl := pure_eq_ok.mp h
        obtain rfl := List.mem_singleton.mp ha
        exact ⟨o, not_not.mp hnote, ho, hcode, hparts, rfl⟩
      · exact absurd h throw_ne_ok
    · exact absurd h throw_ne_ok

/-! ## Runs -/

/-- The invoice that the note adjusts is authorized under a CAE, and of the note's company. -/
def adjustsAuthorized (v : View) (m : Nat) : Bool :=
  let note : Move := v (.move m)
  note.adjusted?.all fun o =>
    let origin : Move := v (.move o)
    origin.arcaState == .authorized && origin.cae.getD "" != "" && origin.companyId == note.companyId

/-- Invoices are kept as they were asked for, and notes wait for the invoices that they adjust. -/
def notesWait (s : Sys W) (a : Act W) : Bool :=
  keepsInvoices s a && rejoinsUnsettled s a &&
    match a with
    | .lastAuthorized w _ => (s.worker w).job.preparing?.all fun p =>
      !noteDocumentTypes.contains p.2.2.seq.documentTypeCode || adjustsAuthorized p.1.view p.2.1
    | _ => true

theorem notesWait_keeps (h : Reachable (system P) (fun s a => notesWait s a = true) s) :
    Reachable (system P) (fun s a => keepsInvoices s a = true) s :=
  reachable_mono (fun _ _ _ _ hok => (Bool.and_eq_true_iff.mp (Bool.and_eq_true_iff.mp hok).1).1) h

theorem notesWait_rejoins (h : Reachable (system P) (fun s a => notesWait s a = true) s) :
    Reachable (system P) (fun s a => rejoinsUnsettled s a = true) s :=
  reachable_mono (fun _ _ _ _ hok => (Bool.and_eq_true_iff.mp (Bool.and_eq_true_iff.mp hok).1).2) h

omit [DecidableEq W] in
theorem authorized_voucher {t : DbTx} {o : Nat} (hag : Agreed s)
    (hc : AllRows (fun _ _ => True) (fun _ => TrueCae s) s) (ht : Live s t)
    (hauth : (t.view (.move o) : Move).arcaState = .authorized)
    (hcae : (t.view (.move o) : Move).cae.getD "" ≠ "") :
    ∃ i b c v, LiveAttempt t.view o i b ∧ b.coordinates = some c ∧ s.arca.voucher c = some v ∧
      (t.view (.move o) : Move).cae = some v.cae := by
  obtain ⟨i, b, hb⟩ := (hag.views t ht o).found (by simp [hauth, expected])
  have hst : b.state = .authorized := by
    have := (hag.views t ht o).state i b hb
    simpa [hauth, expected] using this.symm
  cases hcase : (t.view (.move o) : Move).cae with
  | none => simp [hcase] at hcae
  | some cae =>
    rw [hcase, Option.getD_some] at hcae
    have hown := ((hag.views t ht o).cae i b hb hst).1
    obtain ⟨c, v, hcoord, hv, hvc⟩ := (hc.views t ht).attempts i b hb.row hst cae
      (hown.symm.trans hcase) hcae
    exact ⟨i, b, c, v, hb, hcoord, hv, congrArg some hvc.symm⟩

theorem evidence_coordinates {e : Evidence} {c : Coordinates} (h : e.coordinates = some c) :
    c.line.ptoVta = e.posNumber ∧ c.line.cbteTipo = e.documentTypeCode ∧ c.number = e.documentNumber := by
  obtain ⟨cuit, -, rfl⟩ := Option.map_eq_some_iff.mp h
  exact ⟨rfl, rfl, rfl⟩

/-- What a run keeps of its notes. -/
structure NotesKept (s : Sys W) : Prop where
  dated : AttestsAll DatedBy s
  lasting : Lasting s
  names : AttestsAll (NamesVouchers s) s

omit [DecidableEq W] in
theorem names_created {C : Nat → Option String} (hs : Sound s) (hag : Agreed s) (hma : MatchedAll s)
    (hc : AllRows (fun _ _ => True) (fun _ => TrueCae s) s) (hissued : Issued C s)
    (hdated : AttestsAll DatedBy s) (hlasting : Lasting s) (hok : notesWait s a = true) :
    CreatesAttested P (NamesVouchers s) s a := by
  rintro w reply se m key t intent header detail rfl hw hreq associated hassociated
  have ht : Live s t := live_work hw rfl
  obtain ⟨hclean, now, hstart⟩ := job_sound hs hw
  obtain ⟨-, -, hseq, -⟩ := authorizeStart_spec hstart
  obtain ⟨-, -, hdocuments⟩ := prepareRequest_rest hreq
  obtain ⟨o, hnote, ho, htipo, hparts, hday⟩ := associatedDocuments_spec hdocuments hassociated
  have hwaits : adjustsAuthorized t.view m = true := by
    simp only [notesWait, hw, Job.preparing?, Option.all_some, Bool.and_eq_true, Bool.or_eq_true,
      Bool.not_eq_true', List.contains_eq_mem, decide_eq_false_iff_not] at hok
    exact hok.2.resolve_left fun hno => hno hnote
  simp only [adjustsAuthorized, ho, Option.all_some, Bool.and_eq_true, beq_iff_eq, bne_iff_ne] at hwaits
  obtain ⟨⟨hauth, hcae⟩, hcompany⟩ := hwaits
  obtain ⟨i, b, c, v, hb, hcoord, hv, hown⟩ := authorized_voucher hag hc ht hauth hcae
  have hmatch := hma.views t ht o i b hb
  obtain ⟨hpos, hcode, hnumber⟩ := evidence_coordinates hcoord
  have hrow : t.snap.row (.attempt i) = some b := (congrFun hclean (.attempt i)).symm.trans hb.row
  obtain ⟨b', hrow', hev, -⟩ := (hs.isolated t ht).since i b hrow
  have hsnap : (t.snap.row (.move o) : Move) = t.view (.move o) := (congrFun hclean (.move o)).symm
  have hstays := hlasting t ht o (by rw [hsnap]; exact hauth)
  have hissuer : some b.issuerCuit = some intent.seq.issuerCuit := by
    rw [← (hissued.attempts.views t ht).attempts i b hb.row, ← hmatch.companyId, hcompany,
      ← hissued.views t ht, Company.cuit?, moveSequence_cuit hseq]
    rfl
  rw [documentTypeCode_spec hmatch.documentTypeCode] at htipo
  rw [hmatch.parts] at hparts
  obtain ⟨hptoVta, hnro⟩ := Prod.mk.inj (Except.ok.inj hparts)
  refine ⟨o, i, b', c, v, ho, {
    row := hrow'
    move := (congrArg Evidence.moveId hev).trans hb.move
    issuerCuit := (congrArg Evidence.issuerCuit hev).trans (Option.some.inj hissuer)
    coordinates := (congrArg Evidence.coordinates hev).trans hcoord
    tipo := by rw [← Option.some.inj htipo, hcode]
    ptoVta := by rw [← hptoVta, hpos]
    nro := by rw [← hnro, hnumber]
    cbteFch := fun day hd => ?_
    voucher := hv
    authorized := hstays.state
    cae := by rw [hstays.cae, hsnap, hown] }⟩
  rw [hday] at hd
  obtain ⟨date, hdate, rfl⟩ := Option.map_eq_some_iff.mp hd
  rw [hev]
  exact (hdated.views t ht o i b hb date hdate).symm

theorem reachable_notesKept (h : Reachable (system P) (fun s a => notesWait s a = true) s) :
    NotesKept s := by
  refine reachable_inv (P := NotesKept) ?_ ?_ h
  · intro s hi
    exact ⟨initial_attestsAll hi, fun t ht => absurd ht (initial_not_live hi t), initial_attestsAll hi⟩
  · intro s a s' hr hok hk hstep
    have h := step_cases hstep
    have hs := reachable_sound hr
    have hkeeps := notesWait_keeps hr
    have hag := reachable_agreed (keepsInvoices_rejoins hkeeps)
    have hma := reachable_matched hkeeps
    have hfin := (reachable_final (notesWait_rejoins hr)).2
    have hinvoices : keepsInvoices s a = true :=
      (Bool.and_eq_true_iff.mp (Bool.and_eq_true_iff.mp hok).1).1
    obtain ⟨C, hissued⟩ := reachable_issued hkeeps
    have hcreated := names_created (P := P) hs hag hma (reachable_trueCae hr) hissued hk.dated hk.lasting hok
    exact {
      dated := attestsAll_step (fun _ _ _ h => h) hs hag hinvoices hma hk.dated datedBy_created h
      lasting := lasting_step hs hfin hk.lasting h
      names := attestsAll_mono (attestsAll_step namesVouchers_stable hs hag hinvoices hma hk.names hcreated h)
        fun _ _ => namesVouchers_step hs hfin h }

/-- Where notes wait for the invoices that they adjust, each note that ARCA has or may have
names one voucher: that of the invoice that it adjusts, which ARCA holds. -/
theorem note_names_voucher {m i : Nat} {note : Attempt}
    (hs : Reachable (system P) (fun s a => notesWait s a = true) s)
    (hb : LiveAttempt s.db.row m i note) (hnote : note.documentTypeCode ∈ noteDocumentTypes) :
    ∃ associated o j b c v, note.requestPayload.cbtesAsoc = [associated] ∧
      (s.db.row (.move m) : Move).adjusted? = some o ∧
      NamesVoucher s note.toEvidence associated o j b c v := by
  obtain ⟨associated, hone, -⟩ := ((reachable_passes hs).db.attempts i note hb.row).associated.note hnote
  obtain ⟨o, j, b, c, v, ho, hnames⟩ := (reachable_notesKept hs).names.db m i note hb associated
    (by rw [hone]; exact List.mem_singleton.mpr rfl)
  exact ⟨associated, o, j, b, c, v, hone, ho, hnames⟩

namespace Office

/-- A credit note for invoice 0. -/
def creditNote : MoveForm :=
  { form 1 1 with
    documentType := some ⟨some "8", "NOTAS DE CREDITO B", some "B"⟩
    reversedEntryId := some 0 }

end Office

theorem note_names_voucher_credit :
    ∃ (s : Sys (Fin 3)) (note b : Attempt) (associated : CbteAsoc) (o j : Nat) (c : Coordinates)
      (v : Voucher), note.requestPayload.cbtesAsoc = [associated] ∧
      (s.db.row (.move 3) : Move).adjusted? = some o ∧
      NamesVoucher s note.toEvidence associated o j b c v := by
  obtain ⟨s, hs, hst⟩ := Office.reaches (fun s a => notesWait s a = true)
    (Office.posted 0 0 ++ Office.recorded 0 0 0 ++ Office.approved 0 0 "74000000000001" ++
      [.start 2, .user 2 (.edit 3 Office.creditNote), .user 2 (.posting 3 none), .commit 2] ++
      Office.recorded 1 3 0)
    (fun s => (s.db.row (.attempt 1)).any fun b =>
      (b.moveId == some 3 && b.state.isLive) && b.documentTypeCode == 8) (by decide +kernel)
  obtain ⟨note, hrow, hb⟩ := (Option.any_eq_true _ _).mp hst
  simp only [Bool.and_eq_true, beq_iff_eq] at hb
  obtain ⟨associated, o, j, b, c, v, hnames⟩ := note_names_voucher hs ⟨hrow, hb.1.1, hb.1.2⟩
    (by rw [hb.2]; decide)
  exact ⟨s, note, b, associated, o, j, c, v, hnames⟩

/-- Nothing makes a note wait: it leaves for an invoice that ARCA was never asked about. -/
theorem note_names_nothing :
    ∃ s : Sys (Fin 3), Reachable (system Office.platform) Always s ∧
      s.arca.voucher (Office.numbered 1) = none ∧
      ∃ t ∈ s.arca.sent, t.detail.cbtesAsoc = [⟨6, 1, 1, some "20260115"⟩] := by
  obtain ⟨s, hs, hst⟩ := Office.reaches Always
    (Office.posted 0 0 ++
      [.start 2, .user 2 (.edit 3 Office.creditNote), .user 2 (.posting 3 none), .commit 2] ++
      Office.recorded 1 3 0 ++ [.resume 1, .transmit 1])
    (fun s => (s.arca.voucher (Office.numbered 1)).isNone &&
      s.arca.sent.any fun t => t.detail.cbtesAsoc == [⟨6, 1, 1, some "20260115"⟩]) (by decide +kernel)
  rw [Bool.and_eq_true, Option.isNone_iff_eq_none, List.any_eq_true] at hst
  obtain ⟨hnone, t, ht, hasoc⟩ := hst
  exact ⟨s, hs, hnone, t, ht, beq_iff_eq.mp hasoc⟩

end ArcaEdi
