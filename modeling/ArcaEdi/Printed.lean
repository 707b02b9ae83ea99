import ArcaEdi.Log
import ArcaEdi.Matching

/-!
# What an authorized invoice shows

Its CAE and its QR code name a voucher. That voucher is the one that ARCA holds
for the number printed on the invoice.
-/

namespace ArcaEdi

open Snapshot Runs Raise

variable {W : Type} {P : Platform} {s s' : Sys W} {a : Act W} {w : W}

/-! ## The QR code -/

/-- The QR names the voucher and carries its CAE. -/
structure QrPayload.Names (qr : QrPayload) (c : Coordinates) (cae : String) : Prop where
  cuit : qr.cuit = c.line.cuit
  ptoVta : qr.ptoVta = c.line.ptoVta
  tipoCmp : qr.tipoCmp = c.line.cbteTipo
  nroCmp : qr.nroCmp = c.number
  codAut : PyText.int? cae = some qr.codAut

theorem validateDocumentTypeCode_spec {code : Int} {label : String}
    (h : Move.validateDocumentTypeCode code label = .ok ()) : 0 ≤ code := by
  unfold Move.validateDocumentTypeCode at h
  simp only at h
  split at h
  · exact absurd h throw_ne_ok
  · split at h
    · exact absurd h throw_ne_ok
    · split at h
      · exact absurd h throw_ne_ok
      · next hsupported =>
        have hall : ∀ n ∈ supportedDocumentTypes, 0 ≤ n := by decide
        exact hall code (not_not.mp hsupported)

theorem documentTypeCode_spec {move : Move} {code : Nat} (h : move.documentTypeCode = .ok code) :
    PyText.intField? (move.documentType.bind (·.code)) = some (code : Int) := by
  unfold Move.documentTypeCode at h
  split at h
  · next docType hdoc =>
    rw [hdoc, Option.bind_some]
    split at h
    · next n hn =>
      obtain ⟨⟨⟩, hvalid, hcode⟩ := bind_eq_ok.mp h
      obtain rfl := pure_eq_ok.mp hcode
      rw [hn, Int.toNat_of_nonneg (validateDocumentTypeCode_spec hvalid)]
    · exact absurd h throw_ne_ok
  · exact absurd h throw_ne_ok

theorem qrPayload_spec {today : Date} {v : View} {m : Nat} {qr : QrPayload}
    (h : qrPayload today v m = .ok qr) :
    ∃ issuerCuit, (v (.company (v (.move m) : Move).companyId) : Company).issuerCuit = .ok issuerCuit ∧
      PyText.int? issuerCuit = some qr.cuit ∧
      (v (.move m) : Move).documentNumberParts = .ok (qr.ptoVta, qr.nroCmp) ∧
      PyText.intField? ((v (.move m) : Move).documentType.bind (·.code)) = some qr.tipoCmp ∧
      PyText.intField? (v (.move m) : Move).cae = some qr.codAut := by
  unfold qrPayload at h
  simp only [bind_eq_ok] at h
  obtain ⟨issuerCuit, hissuer, ⟨posNumber, number⟩, hparts, h⟩ := h
  split at h
  · next docTypeCode hcode =>
    simp only [bind_eq_ok] at h
    obtain ⟨currency, -, receptor, -, h⟩ := h
    split at h
    · next cuit hcuit =>
      split at h
      · next codAut hcae =>
        obtain rfl := pure_eq_ok.mp h
        exact ⟨issuerCuit, hissuer, hcuit, hparts, hcode, hcae⟩
      · exact absurd h throw_ne_ok
    · exact absurd h throw_ne_ok
  · exact absurd h throw_ne_ok

theorem qrCode_names {today : Date} {v : View} {m : Nat} {qr : QrPayload} {e : Evidence}
    {c : Coordinates} {cae : String} (h : qrCode today v m = some qr)
    (hm : Matches (v (.move m)) e) (hc : e.coordinates = some c)
    (hcuit : (v (.company e.companyId) : Company).cuit? = some e.issuerCuit)
    (hcae : (v (.move m) : Move).cae = some cae) : qr.Names c cae := by
  unfold qrCode at h
  simp only at h
  split at h
  · cases h
  · have hok : qrPayload today v m = .ok qr := by
      cases hp : qrPayload today v m with
      | ok q =>
        rw [hp] at h
        cases h
        rfl
      | error e =>
        rw [hp] at h
        cases h
    obtain ⟨issuerCuit, hissuer, hint, hparts, hcode, hcodAut⟩ := qrPayload_spec hok
    rw [hm.companyId] at hissuer
    rw [Company.cuit?, hissuer] at hcuit
    cases hcuit
    rw [hm.parts] at hparts
    rw [documentTypeCode_spec hm.documentTypeCode] at hcode
    rw [hcae] at hcodAut
    rw [Evidence.coordinates, hint] at hc
    cases hc
    obtain ⟨hpos, hnumber⟩ := Prod.mk.inj (Except.ok.inj hparts)
    exact ⟨rfl, hpos.symm, (Option.some.inj hcode).symm, hnumber.symm, hcodAut⟩

theorem moveSequence_cuit {v : View} {m : Nat} {q : Sequence} (h : moveSequence v m = .ok q) :
    (v (.company (v (.move m) : Move).companyId) : Company).issuerCuit = .ok q.issuerCuit := by
  unfold moveSequence at h
  simp only [bind_eq_ok, pure_eq_ok] at h
  obtain ⟨-, -, -, -, cuit, hcuit, rfl⟩ := h
  exact hcuit

variable [DecidableEq W]

/-! ## The CAE -/

/-- The CAE of an authorized attempt is that of the voucher at its coordinates. -/
def TrueCae (s : Sys W) (b : Attempt) : Prop :=
  b.state = .authorized → ∀ cae, b.cae = some cae → cae ≠ "" →
    ∃ c v, b.coordinates = some c ∧ s.arca.voucher c = some v ∧ v.cae = cae

theorem trueCae_mono {b : Attempt} (h : Step P s a s') (hb : TrueCae s b) : TrueCae s' b := by
  intro hst cae hcae hne
  obtain ⟨c, v, hc, hv, hvc⟩ := hb hst cae hcae hne
  exact ⟨c, v, hc, voucher_step h hv, hvc⟩

omit [DecidableEq W] in
theorem trueCae_outcome {se : Option DbTx} {t : DbTx} {m key i : Nat} {r : Request} {stage : Stage}
    {result : Except Exn CaeResult} {b b' : Attempt} (hs : Sound s) (hl : Logged s)
    (hw : s.worker w = ⟨se, .request m key stage⟩) (hf : Finishes s w t i r a stage result)
    (hview : t.view (.attempt i) = some b) (hev : b'.toEvidence = b.toEvidence)
    (hc : Concludes result b') : TrueCae s b' := by
  intro hst cae hcae hne
  obtain ⟨hclean, -⟩ := made_of_finishes hs hw hf
  cases hc with
  | uncertain h | aborted h | rejected h => simp [h] at hst
  | @authorized _ found hcae' hr =>
    cases hf with
    | unsent => cases hr
    | answered hh =>
      rw [hcae'] at hcae
      simp only [Arca.honestCae_ok hr, hcae, Option.all_some, Bool.or_eq_true, beq_iff_eq, hne,
        false_or, List.any_eq_true, Bool.and_eq_true] at hh
      obtain ⟨u, hu, ⟨hui, -⟩, hv⟩ := hh
      obtain ⟨v, hv, hvc⟩ := (Option.any_eq_true _ _).mp hv
      obtain ⟨d, hd, hask⟩ := hl.asked u hu
      obtain ⟨d', hd', hev', -⟩ := (hs.isolated t (live_work hw rfl)).since i b
        (congrFun hclean _ ▸ hview)
      rw [hui, hd'] at hd
      cases hd
      exact ⟨u.coordinates, v, by rw [hev, ← hev']; exact asked_coordinates hask, hv,
        beq_iff_eq.mp hvc⟩

omit [DecidableEq W] in
theorem reconciles_coordinates {E : Nat → Environment} {t t' : DbTx} {i m k : Nat}
    {reply : SoapReply (Option ConsultResponse)} {env : Environment} {cuit : Int}
    {found : Option Found} {b b' : Attempt} {st : ArcaStatus} (hk : Kept E s) (ht : Live s t)
    (hr : Reconciles s t i reply t' b m k env cuit found b' st) :
    b.coordinates = some ⟨⟨env, cuit, b.posNumber, b.documentTypeCode⟩, b.documentNumber⟩ := by
  have hrows := hk.views t ht
  obtain ⟨-, henv, hcuit⟩ := auth_spec hr.auth
  have hrow := (hrows.attempts i b hr.view).environment
  rw [hr.certificate, Option.map_some, Option.some.injEq, ← (hrows.certificates k).environment,
    henv] at hrow
  simp [Evidence.coordinates, hcuit, hrow]

theorem consultar_found {reply : SoapReply (Option ConsultResponse)} {f : Found}
    (h : feCompConsultar reply = .ok (some f)) :
    ∃ r g, reply = .response (some r) ∧ r.resultGet = some g ∧ f.cae = g.codAutorizacion := by
  unfold feCompConsultar at h
  obtain ⟨response, hcall, h⟩ := Raise.bind_eq_ok.mp h
  have hreply : reply = .response response := by
    unfold call at hcall
    split at hcall <;> first | cases hcall
    rfl
  simp only at h
  split at h
  · cases h
  · split at h
    · exact absurd h (by unfold raiseBusinessError; split <;> simp [raiseArca])
    · split at h
      · cases h
      · next g hg =>
        cases h
        obtain ⟨r, rfl, hr⟩ := Option.bind_eq_some_iff.mp hg
        exact ⟨r, g, hreply, hr, rfl⟩

omit [DecidableEq W] in
theorem trueCae_reconcile {E : Nat → Environment} {t t' : DbTx} {i m k : Nat}
    {reply : SoapReply (Option ConsultResponse)} {env : Environment} {cuit : Int}
    {found : Option Found} {b b' : Attempt} {st : ArcaStatus} (hk : Kept E s) (ht : Live s t)
    (hr : Reconciles s t i reply t' b m k env cuit found b' st) : TrueCae s b' := by
  intro hst cae hcae hne
  cases found with
  | none => simp [hr.notFound rfl] at hst
  | some f =>
    obtain ⟨r, g, rfl, hg, hfg⟩ := consultar_found hr.answer
    rw [(hr.isFound f rfl).2, hfg] at hcae
    have hh := hr.honest
    simp only [Arca.honestConsult, hg, Option.all_some, Bool.and_eq_true] at hh
    obtain ⟨v, hv, hvc⟩ := (Option.any_eq_true _ _).mp hh.2
    simp only [hcae, Option.all_some, Bool.or_eq_true, beq_iff_eq, hne, false_or] at hvc
    exact ⟨_, v, by rw [hr.evidence]; exact reconciles_coordinates hk ht hr, hv, hvc⟩

theorem trueCae_step {E : Nat → Environment} (hs : Sound s) (hl : Logged s) (hk : Kept E s)
    (hc : AllRows (fun _ _ => True) (fun _ => TrueCae s) s) (h : Step P s a s') :
    AllRows (fun _ _ => True) (fun _ => TrueCae s') s' := by
  refine allRows_step hs (fun _ _ _ _ => id) (fun _ _ _ => id) ?_
    (allRows_mono hc (fun _ _ => id) (fun _ _ => trueCae_mono h)) h
  intro t i b ht hrows hw
  refine trueCae_mono h ?_
  cases hw with
  | create hw hreq => exact fun hst => by simp [newAttempt] at hst
  | outcome hw hf hview hd hev hout hc => exact trueCae_outcome hs hl hw hf hview hev hc
  | reconcile hw hr => exact trueCae_reconcile hk ht hr

theorem reachable_trueCae {ok : Sys W → Act W → Prop} (h : Reachable (system P) ok s) :
    AllRows (fun _ _ => True) (fun _ => TrueCae s) s := by
  refine reachable_inv (P := fun s => AllRows (fun _ _ => True) (fun _ => TrueCae s) s)
    (fun s hi => initial_allRows hi fun _ => trivial) ?_ h
  intro s a s' hr _ hc h
  obtain ⟨E, hk⟩ := reachable_kept hr
  exact trueCae_step (reachable_sound hr) (reachable_logged hr) hk hc (step_cases h)

/-! ## The CUIT -/

def CuitsKept (C : Nat → Option String) (v : View) : Prop :=
  ∀ c, (v (.company c) : Company).cuit? = C c

section Cuits

omit [DecidableEq W]

variable {C : Nat → Option String} {t t' : DbTx}

theorem cuits_user {now : Nat} {D : Move → Prop} (h : CuitsKept C t.view)
    (hu : UserWrites now D (fun c v => v.cuit? = C c) t t') : CuitsKept C t'.view := by
  induction hu with
  | refl => exact h
  | tail _ hu ih =>
    intro c
    cases hu with
    | move | journal | certificate =>
      rw [write_view_ne _ _ (by simp)]
      exact ih c
    | @company d v hv =>
      by_cases hcd : c = d
      · subst hcd
        rw [write_view_self]
        exact hv
      · rw [write_view_ne _ _ (by simpa using hcd)]
        exact ih c

theorem cuits_writes (hs : Sound s) (hok : keepsInvoices s a = true) (h : CuitsKept C t.view)
    (hw : Writes P s a t t') : CuitsKept C t'.view := by
  rcases writes_pair hs hw with ⟨w, op, rfl, hworker, hop⟩ | ⟨i, b, m, st, rfl⟩
  · refine cuits_user (D := fun _ => True) h (user_spec (fun _ _ => trivial) ?_ hop)
    rintro c company rfl
    simp only [keepsInvoices, hworker, Option.all_some, beq_iff_eq] at hok
    exact hok.trans (h c)
  · intro c
    rw [pairWrite_company]
    exact h c

end Cuits

/-- Every attempt was made under the CUIT of its company. -/
structure Issued (C : Nat → Option String) (s : Sys W) : Prop where
  db : CuitsKept C s.db.row
  views : ∀ t, Live s t → CuitsKept C t.view
  attempts : AllRows (fun _ _ => True) (fun _ b => C b.companyId = some b.issuerCuit) s

theorem issued_step {C : Nat → Option String} (hs : Sound s) (hok : keepsInvoices s a = true)
    (hc : Issued C s) (h : Step P s a s') : Issued C s' := by
  have hcommit : ∀ t, Isolated s.db s.nextAttempt t → s.commitTx t = some s'.db →
      CuitsKept C t.view → CuitsKept C (s.db.apply t).row := by
    intro t ht hcommit hT c
    rcases apply_row s.db t (.company c) with h | h <;> rw [h]
    · exact hc.db c
    · exact hT c
  obtain ⟨hdb, hviews⟩ := views_step (D := fun db => CuitsKept C db.row)
    (T := fun t => CuitsKept C t.view) hs h hc.db
    (fun k new c => by rw [ticketTx, write_view_ne _ _ (by simp)]; exact hc.db c)
    (fun t t' hw ht => cuits_writes hs hok ht hw) hcommit hc.db hc.views
  refine ⟨hdb, hviews, allRows_step hs (fun _ _ _ _ => id) (fun _ _ _ => id) ?_ hc.attempts h⟩
  intro t i b ht hrows hw
  cases hw with
  | @create w reply se m key c header detail hw hreq =>
    obtain ⟨-, now, hstart⟩ := job_sound hs hw
    obtain ⟨-, -, hseq, -⟩ := authorizeStart_spec hstart
    rw [newAttempt, ← hc.views t ht, Company.cuit?, moveSequence_cuit hseq]
    rfl
  | outcome hw hf hview hd hev hout hcon =>
    rw [hev]
    exact hrows.attempts _ _ hview
  | reconcile hw hr =>
    rw [hr.evidence]
    exact hrows.attempts _ _ hr.view

theorem reachable_issued (h : Reachable (system P) (fun s a => keepsInvoices s a = true) s) :
    ∃ C, Issued C s := by
  refine reachable_inv (P := fun s => ∃ C, Issued C s) ?_ ?_ h
  · intro s hi
    exact ⟨fun c => (s.db.row (.company c) : Company).cuit?, fun _ => rfl,
      fun t ht => absurd ht (initial_not_live hi t), initial_allRows hi fun _ => trivial⟩
  · rintro s a s' hr hok ⟨C, hc⟩ h
    exact ⟨C, issued_step (reachable_sound hr) hok hc (step_cases h)⟩

/-! ## What an invoice shows -/

/-- The CAE and the QR of the invoice belong to the voucher that ARCA holds for the
number printed on it. -/
def ShowsItsVoucher (s : Sys W) (m : Nat) : Prop :=
  ∀ cae, (s.db.row (.move m) : Move).cae = some cae → cae ≠ "" →
    ∃ i b c v, AuthorizedAttempt s.db.row m i b ∧ Matches (s.db.row (.move m)) b.toEvidence ∧
      b.coordinates = some c ∧ s.arca.voucher c = some v ∧ v.cae = cae ∧
      ∀ today qr, qrCode today s.db.row m = some qr → qr.Names c cae

end ArcaEdi
