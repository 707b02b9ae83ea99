import ArcaEdi.Actions
import ArcaEdi.Rows

/-!
# The log of requests

Every request that left is on record: an attempt row was committed before it
left, and names what was asked. ARCA's vouchers lead back to those rows.
-/

namespace ArcaEdi

open Snapshot Runs

variable {W : Type} {P : Platform} {s s' : Sys W} {a : Act W}

/-! ## Certificates and attempts -/

/-- What every certificate keeps. -/
structure CertificateRow (E : Nat → Environment) (k : Nat) (c : Certificate) : Prop where
  environment : c.environment = E k
  key : c.state ≠ .draft → c.state ≠ .revoked → c.privateKey ≠ none

/-- What every attempt keeps. -/
structure AttemptRow (E : Nat → Environment) (b : Attempt) : Prop where
  environment : b.certificateId.map E = some b.environment
  outcome : b.state.isOpen = true ∨ b.resolvedAt ≠ none

theorem certificateWrite_environment {now : Nat} {c c' : Certificate} (h : CertificateWrite now c c') :
    c'.environment = c.environment := by
  cases h with
  | generate hg =>
    obtain ⟨-, -, rfl⟩ := Certificate.generate_eq_ok.mp hg
    rfl
  | upload hu =>
    obtain ⟨cert, -, -, rfl⟩ := Certificate.process_eq_ok.mp hu
    rfl
  | revoke => rfl
  | expire =>
    unfold Certificate.cronCheckExpiration
    split <;> rfl

theorem certificateRow_write {E : Nat → Environment} {now k : Nat} {c c' : Certificate}
    (hw : CertificateWrite now c c') (h : CertificateRow E k c) : CertificateRow E k c' := by
  refine ⟨(certificateWrite_environment hw).trans h.environment, ?_⟩
  cases hw with
  | generate hg =>
    obtain ⟨-, -, rfl⟩ := Certificate.generate_eq_ok.mp hg
    exact fun _ _ => Option.some_ne_none _
  | upload hu =>
    obtain ⟨cert, -, haccepts, rfl⟩ := Certificate.process_eq_ok.mp hu
    obtain ⟨key, hkey, -⟩ := haccepts.key
    intro _ _ hnone
    rw [show c.privateKey = none from hnone] at hkey
    cases hkey
  | revoke => exact fun _ hr => absurd rfl hr
  | expire =>
    unfold Certificate.cronCheckExpiration
    split
    · next he => exact fun _ _ => h.key (by simp [he.1]) (by simp [he.1])
    · exact h.key

theorem Outcome.recorded {b : Attempt} {st : ArcaStatus} (h : Outcome b st) :
    b.state.isOpen = true ∨ b.resolvedAt ≠ none := by
  cases h with
  | uncertain ha => exact .inl (by rw [ha]; rfl)
  | closed _ _ hr => exact .inr hr
  | authorized _ _ _ _ hr => exact .inr hr

/-- The invariant of rows, with the environment of each certificate. -/
abbrev Kept (E : Nat → Environment) (s : Sys W) : Prop :=
  AllRows (CertificateRow E) (fun _ => AttemptRow E) s

variable [DecidableEq W]

theorem kept_step {E : Nat → Environment} (hs : Sound s) (hk : Kept E s) (h : Step P s a s') :
    Kept E s' := by
  refine allRows_step hs (fun _ _ _ => certificateRow_write) ?_ ?_ hk h
  · exact fun k c new hc => ⟨hc.environment, hc.key⟩
  · intro t i b ht hrows hw
    cases hw with
    | create hw hreq => exact ⟨by simp [newAttempt, (hrows.certificates _).environment], .inl rfl⟩
    | outcome hw hf hview hd hev hout hc =>
      have hb := (hrows.attempts _ _ hview).environment
      rw [← hev] at hb
      exact ⟨hb, hout.recorded⟩
    | reconcile hw hr =>
      have hb := (hrows.attempts _ _ hr.view).environment
      rw [← hr.evidence] at hb
      exact ⟨hb, hr.outcome.recorded⟩

theorem reachable_kept {ok : Sys W → Act W → Prop} (h : Reachable (system P) ok s) :
    ∃ E, Kept E s := by
  refine reachable_inv (P := fun s => ∃ E, Kept E s) ?_ ?_ h
  · intro s hi
    refine ⟨fun k => (s.db.row (.certificate k) : Certificate).environment, initial_allRows hi ?_⟩
    exact fun k => ⟨rfl, fun hd => absurd (hi.certificates k) hd⟩
  · rintro s a s' hr _ ⟨E, hk⟩ h
    exact ⟨E, kept_step (reachable_sound hr) hk (step_cases h)⟩

/-! ## What ARCA holds -/

section Books

omit [DecidableEq W]

theorem mem_modify {α : Type*} {l : List α} {n : Nat} {f : α → α} {x : α} (h : x ∈ l.modify n f) :
    x ∈ l ∨ ∃ y, l[n]? = some y ∧ x = f y := by
  obtain ⟨j, hj⟩ := List.mem_iff_getElem?.mp h
  rw [List.getElem?_modify] at hj
  obtain ⟨y, hy, rfl⟩ := Option.map_eq_some_iff.mp hj
  by_cases hnj : n = j
  · subst hnj
    exact .inr ⟨y, hy, by simp⟩
  · exact .inl (by simpa [hnj] using List.mem_of_getElem? hy)

theorem mem_modify_of_ne {α : Type*} {l : List α} {n : Nat} {f : α → α} {x : α} (h : x ∈ l)
    (hne : l[n]? ≠ some x) : x ∈ l.modify n f := by
  obtain ⟨j, hj⟩ := List.mem_iff_getElem?.mp h
  have hnj : n ≠ j := by
    rintro rfl
    exact hne hj
  refine List.mem_iff_getElem?.mpr ⟨j, ?_⟩
  rw [List.getElem?_modify, hj]
  simp [hnj]

theorem issue_spec {arca arca' : Arca} {c : Coordinates} {v : Voucher}
    (h : arca.issue c v = some arca') :
    arca.voucher c = none ∧ arca'.sent = arca.sent ∧
      arca'.voucher = Function.update arca.voucher c (some v) := by
  unfold Arca.issue at h
  split at h
  · next hc =>
    cases h
    exact ⟨hc.2, rfl, rfl⟩
  · cases h

theorem record_spec {arca arca' : Arca} {now n : Nat} {cae : String}
    (h : arca.record now n cae = some arca') :
    ∃ t, arca.sent[n]? = some t ∧ Arca.alive now t ∧
      (arca.settle n .recorded).issue t.coordinates ⟨some t.attempt, cae⟩ = some arca' := by
  unfold Arca.record at h
  split at h
  · next t ht =>
    split at h
    · next ha => exact ⟨t, ht, ha, h⟩
    · cases h
  · cases h

theorem refuse_spec {arca arca' : Arca} {n : Nat} (h : arca.refuse n = some arca') :
    ∃ t, arca.sent[n]? = some t ∧ t.fate = .pending ∧ arca' = arca.settle n .refused := by
  unfold Arca.refuse at h
  split at h
  · next t ht =>
    split at h
    · next hp =>
      cases h
      exact ⟨t, ht, hp, rfl⟩
    · cases h
  · cases h

theorem voucher_kept {arca arca' : Arca} {c d : Coordinates} {v u : Voucher}
    (h : arca.issue c v = some arca') (hu : arca.voucher d = some u) : arca'.voucher d = some u := by
  obtain ⟨hnone, -, hv⟩ := issue_spec h
  have hdc : d ≠ c := by
    rintro rfl
    rw [hnone] at hu
    cases hu
  rw [hv, Function.update_of_ne hdc]
  exact hu

end Books

/-- Where a transmission comes from. -/
inductive SentStep (s s' : Sys W) : Act W → Transmission → Prop
  | kept {a : Act W} {t : Transmission} (ht : t ∈ s.arca.sent) : SentStep s s' a t
  | recorded {n : Nat} {cae : String} {t : Transmission} (ht : t ∈ s.arca.sent)
      (ha : Arca.alive s.clock t)
      (hv : s'.arca.voucher t.coordinates = some ⟨some t.attempt, cae⟩) :
      SentStep s s' (.record n cae) { t with fate := .recorded }
  | refused {n : Nat} {t : Transmission} (ht : t ∈ s.arca.sent) :
      SentStep s s' (.refuse n) { t with fate := .refused }
  | transmit {w : W} {se : Option DbTx} {m key i : Nat} {tx : DbTx} {r : Request}
      {env : Environment} {cuit : Int} (hw : s.worker w = ⟨se, .request m key (.sending tx i r)⟩)
      (ha : Sys.auth s.clock tx.view r.certificateId r.issuerCuit = some (env, cuit)) :
      SentStep s s' (.transmit w) ⟨i, env, cuit, r.header, r.detail, s.clock, .pending⟩

theorem sent_step {t : Transmission} (h : Step P s a s') (ht : t ∈ s'.arca.sent) :
    SentStep s s' a t := by
  cases h with
  | transmit hw ha =>
    rcases List.mem_append.mp ht with ht | ht
    · exact .kept ht
    · obtain rfl := List.mem_singleton.mp ht
      exact .transmit hw ha
  | record h =>
    obtain ⟨u, hu, halive, hissue⟩ := record_spec h
    obtain ⟨-, hsent, hvoucher⟩ := issue_spec hissue
    rw [hsent] at ht
    rcases mem_modify ht with ht | ⟨u', hu', rfl⟩
    · exact .kept ht
    · rw [hu] at hu'
      cases hu'
      exact .recorded (List.mem_of_getElem? hu) halive
        (by rw [hvoucher]; exact Function.update_self ..)
  | refuse h =>
    obtain ⟨u, hu, -, rfl⟩ := refuse_spec h
    rcases mem_modify ht with ht | ⟨u', hu', rfl⟩
    · exact .kept ht
    · exact .refused (List.mem_of_getElem? hu')
  | elsewhere h =>
    rw [(issue_spec h).2.1] at ht
    exact .kept ht
  | _ => exact .kept ht

theorem settled_step {t : Transmission} (h : Step P s a s') (ht : t ∈ s.arca.sent)
    (hf : t.fate ≠ .pending) : t ∈ s'.arca.sent := by
  cases h with
  | transmit hw ha => exact List.mem_append_left _ ht
  | record h =>
    obtain ⟨u, hu, halive, hissue⟩ := record_spec h
    rw [(issue_spec hissue).2.1]
    refine mem_modify_of_ne ht fun he => hf ?_
    rw [hu] at he
    cases he
    exact halive.1
  | refuse h =>
    obtain ⟨u, hu, hp, rfl⟩ := refuse_spec h
    refine mem_modify_of_ne ht fun he => hf ?_
    rw [hu] at he
    cases he
    exact hp
  | elsewhere h =>
    rw [(issue_spec h).2.1]
    exact ht
  | _ => exact ht

theorem voucher_step {c : Coordinates} {v : Voucher} (h : Step P s a s')
    (hv : s.arca.voucher c = some v) : s'.arca.voucher c = some v := by
  cases h with
  | record h =>
    obtain ⟨u, -, -, hissue⟩ := record_spec h
    exact voucher_kept hissue hv
  | refuse h =>
    obtain ⟨u, -, -, rfl⟩ := refuse_spec h
    exact hv
  | elsewhere h => exact voucher_kept h hv
  | _ => exact hv

theorem origin_step {c : Coordinates} {v : Voucher} {i : Nat} (h : Step P s a s')
    (hv : s'.arca.voucher c = some v) (hi : v.origin = some i) :
    s.arca.voucher c = some v ∨
      ∃ t ∈ s'.arca.sent, t.attempt = i ∧ t.fate = .recorded ∧ t.coordinates = c := by
  cases h with
  | @record n cae arca h =>
    obtain ⟨u, hu, -, hissue⟩ := record_spec h
    obtain ⟨-, hsent, hvoucher⟩ := issue_spec hissue
    rw [hvoucher] at hv
    by_cases hc : c = u.coordinates
    · subst hc
      rw [Function.update_self] at hv
      cases hv
      cases hi
      refine .inr ⟨{ u with fate := .recorded }, ?_, rfl, rfl, rfl⟩
      rw [hsent, Arca.settle]
      refine List.mem_iff_getElem?.mpr ⟨n, ?_⟩
      rw [List.getElem?_modify, hu]
      simp
    · rw [Function.update_of_ne hc] at hv
      exact .inl hv
  | refuse h =>
    obtain ⟨u, -, -, rfl⟩ := refuse_spec h
    exact .inl hv
  | @elsewhere d cae arca h =>
    obtain ⟨-, -, hvoucher⟩ := issue_spec h
    rw [hvoucher] at hv
    by_cases hc : c = d
    · rw [hc, Function.update_self] at hv
      cases hv
      cases hi
    · rw [Function.update_of_ne hc] at hv
      exact .inl hv
  | _ => exact .inl hv

/-! ## The log -/

/-- The transmission asks for what the attempt records. -/
structure Asked (e : Evidence) (t : Transmission) : Prop where
  environment : e.environment = t.environment
  issuerCuit : PyText.int? e.issuerCuit = some t.cuit
  posNumber : e.posNumber = t.header.ptoVta
  documentTypeCode : e.documentTypeCode = t.header.cbteTipo
  cbteDesde : e.documentNumber = t.detail.cbteDesde
  cbteHasta : e.documentNumber = t.detail.cbteHasta
  payload : e.requestPayload = t.detail

omit [DecidableEq W] in
theorem asked_coordinates {e : Evidence} {t : Transmission} (h : Asked e t) :
    e.coordinates = some t.coordinates := by
  simp [Evidence.coordinates, Transmission.coordinates, h.environment, h.issuerCuit, h.posNumber,
    h.documentTypeCode, h.cbteDesde]

omit [DecidableEq W] in
theorem asked_fate {e : Evidence} {t : Transmission} (h : Asked e t) (fate : Fate) :
    Asked e { t with fate := fate } :=
  ⟨h.environment, h.issuerCuit, h.posNumber, h.documentTypeCode, h.cbteDesde, h.cbteHasta, h.payload⟩

/-- The attempts on record and the requests at ARCA tell the same story. -/
structure Logged (s : Sys W) : Prop where
  asked : ∀ t ∈ s.arca.sent, ∃ b : Attempt,
    s.db.row (.attempt t.attempt) = some b ∧ Asked b.toEvidence t
  unsent : ∀ w i, (s.worker w).job.toSend? = some i → ∀ t ∈ s.arca.sent, t.attempt ≠ i
  recorded : ∀ t ∈ s.arca.sent, t.fate = .recorded →
    ∃ v, s.arca.voucher t.coordinates = some v ∧ v.origin = some t.attempt
  origin : ∀ c v i, s.arca.voucher c = some v → v.origin = some i →
    ∃ t ∈ s.arca.sent, t.attempt = i ∧ t.fate = .recorded ∧ t.coordinates = c

omit [DecidableEq W] in
theorem auth_spec {now k : Nat} {v : View} {issuerCuit : String} {env : Environment} {cuit : Int}
    (h : Sys.auth now v k issuerCuit = some (env, cuit)) :
    (v (.certificate k) : Certificate).checkUsable now = .ok () ∧
      (v (.certificate k) : Certificate).environment = env ∧ PyText.int? issuerCuit = some cuit := by
  unfold Sys.auth at h
  simp only at h
  split at h
  · next hu =>
    obtain ⟨n, hn, heq⟩ := Option.map_eq_some_iff.mp h
    cases heq
    exact ⟨hu, rfl, hn⟩
  · cases h

theorem transmit_spec {w : W} (h : step P s (.transmit w) = some s') :
    ∃ se m key i tx r env cuit, s.worker w = ⟨se, .request m key (.sending tx i r)⟩ ∧
      PyText.int? r.issuerCuit = some cuit ∧ s'.arca.sent = s.arca.sent ++
        [⟨i, env, cuit, r.header, r.detail, s.clock, .pending⟩] := by
  simp only [step, Sys.transmit] at h
  split at h
  · next hw =>
    split at h <;> cases h
    next ha => exact ⟨_, _, _, _, _, _, _, _, hw, (auth_spec ha).2.2, rfl⟩
  · cases h

omit [DecidableEq W] in
theorem asked_transmit {E : Nat → Environment} {w : W} {se : Option DbTx} {m key i : Nat} {tx : DbTx}
    {r : Request} {env : Environment} {cuit : Int} (hs : Sound s) (hk : Kept E s)
    (hw : s.worker w = ⟨se, .request m key (.sending tx i r)⟩)
    (ha : Sys.auth s.clock tx.view r.certificateId r.issuerCuit = some (env, cuit)) :
    ∃ b : Attempt, s.db.row (.attempt i) = some b ∧ b.moveId = some m ∧
      Asked b.toEvidence ⟨i, env, cuit, r.header, r.detail, s.clock, .pending⟩ := by
  have hlive : Live s tx := live_work hw rfl
  obtain ⟨hclean, b, hb, hd⟩ := job_sound hs hw
  obtain ⟨-, henv, hcuit⟩ := auth_spec ha
  have hrows := hk.views tx hlive
  have henv' : b.environment = env := by
    have hrow := (hrows.attempts i b hb).environment
    rw [hd.certificate, Option.map_some, Option.some.injEq,
      ← (hrows.certificates r.certificateId).environment] at hrow
    exact hrow.symm.trans henv
  obtain ⟨b', hb', hev, -⟩ := (hs.isolated tx hlive).since i b (congrFun hclean _ ▸ hb)
  refine ⟨b', hb', (congrArg Evidence.moveId hev).trans hd.move, ?_⟩
  rw [hev]
  exact ⟨henv', by rw [hd.issuerCuit]; exact hcuit, hd.posNumber, hd.documentTypeCode, hd.cbteDesde,
    hd.cbteHasta, hd.payload⟩

theorem asked_before {E : Nat → Environment} {t : Transmission} (hs : Sound s) (hk : Kept E s)
    (hl : Logged s) (h : Step P s a s') (ht : t ∈ s'.arca.sent) :
    ∃ b : Attempt, s.db.row (.attempt t.attempt) = some b ∧ Asked b.toEvidence t := by
  cases sent_step h ht with
  | kept hu => exact hl.asked t hu
  | recorded hu ha hv =>
    obtain ⟨b, hb, hask⟩ := hl.asked _ hu
    exact ⟨b, hb, asked_fate hask _⟩
  | refused hu =>
    obtain ⟨b, hb, hask⟩ := hl.asked _ hu
    exact ⟨b, hb, asked_fate hask _⟩
  | transmit hw ha =>
    obtain ⟨b, hb, -, hask⟩ := asked_transmit hs hk hw ha
    exact ⟨b, hb, hask⟩

theorem logged_step {E : Nat → Environment} (hs : Sound s) (ho : OneOwner s) (hk : Kept E s)
    (hl : Logged s) (h : Step P s a s') : Logged s' := by
  have hlater := (sound_onward hs h).later
  refine ⟨?_, ?_, ?_, ?_⟩
  · intro t ht
    obtain ⟨b, hb, hask⟩ := asked_before hs hk hl h ht
    obtain ⟨b', hb', hev, -⟩ := hlater _ b hb
    exact ⟨b', hb', hev ▸ hask⟩
  · intro w i hi t ht hti
    have hknown : i < s.nextAttempt := by
      obtain ⟨b, hb, -⟩ := asked_before hs hk hl h ht
      exact hti ▸ (hs.known _ b hb).1
    rcases toSend_step h hi with ⟨hold, hact⟩ | rfl
    · cases sent_step h ht with
      | kept hu => exact hl.unsent w i hold t hu hti
      | recorded hu ha hv => exact hl.unsent w i hold _ hu hti
      | refused hu => exact hl.unsent w i hold _ hu hti
      | @transmit w' se m key j tx r env cuit hw ha =>
        obtain rfl : w' = w :=
          ho w' w i (by rw [hw, ← hti]; rfl) (attempt_of_toSend hold)
        rcases hact rfl with hact | hact <;> cases hact
    · exact absurd hknown (Nat.lt_irrefl _)
  · intro t ht hf
    cases sent_step h ht with
    | kept hu =>
      obtain ⟨v, hv, horigin⟩ := hl.recorded t hu hf
      exact ⟨v, voucher_step h hv, horigin⟩
    | recorded hu ha hv => exact ⟨_, hv, rfl⟩
    | refused | transmit => cases hf
  · intro c v i hv hi
    rcases origin_step h hv hi with hold | hnew
    · obtain ⟨t, ht, hti, hf, hc⟩ := hl.origin c v i hold hi
      exact ⟨t, settled_step h ht (by simp [hf]), hti, hf, hc⟩
    · exact hnew

theorem reachable_logged {ok : Sys W → Act W → Prop} (h : Reachable (system P) ok s) :
    Logged s := by
  refine reachable_inv ?_ ?_ h
  · intro s hi
    refine ⟨?_, ?_, ?_, fun c v i hv horigin => ?_⟩
    · simp [hi.sent]
    · simp [hi.sent]
    · simp [hi.sent]
    · rw [hi.vouchers c v hv] at horigin
      cases horigin
  · intro s a s' hr _ hl h
    obtain ⟨E, hk⟩ := reachable_kept hr
    exact logged_step (reachable_sound hr) (reachable_oneOwner hr) hk hl (step_cases h)

/-! ## Evidence before the request -/

/-- The reconciliation cron takes the attempt once it is old enough. -/
def AwaitsCron (b : Attempt) : Prop :=
  b.state.isOpen = true ∧ ∀ now, b.sentAt + staleAttemptSeconds < now → b.isStale now = true

def HasOutcome (b : Attempt) : Prop := b.state.isOpen = false ∧ b.resolvedAt ≠ none

omit [DecidableEq W] in
theorem awaits_or_outcome {E : Nat → Environment} {b : Attempt} (h : AttemptRow E b) :
    AwaitsCron b ∨ HasOutcome b := by
  cases hopen : b.state.isOpen with
  | true => exact .inl ⟨hopen, fun now hnow => by simp [Attempt.isStale, hopen, hnow]⟩
  | false => exact .inr ⟨hopen, h.outcome.resolve_left (by simp [hopen])⟩

/-- In every run, whatever leaves in a step was on record before the step, and
stays on record: open for the cron, or with an outcome. -/
theorem evidence_before_request (hs : Reachable (system P) Always s) :
    (∀ a s' t, step P s a = some s' → t ∈ s'.arca.sent →
      ∃ b : Attempt, s.db.row (.attempt t.attempt) = some b ∧ Asked b.toEvidence t) ∧
    ∀ t ∈ s.arca.sent, ∃ b : Attempt, s.db.row (.attempt t.attempt) = some b ∧
      Asked b.toEvidence t ∧ (AwaitsCron b ∨ HasOutcome b) := by
  obtain ⟨E, hk⟩ := reachable_kept hs
  have hl := reachable_logged hs
  refine ⟨fun a s' t h ht => ?_, fun t ht => ?_⟩
  · exact asked_before (reachable_sound hs) hk hl (step_cases h) ht
  · obtain ⟨b, hb, hask⟩ := hl.asked t ht
    exact ⟨b, hb, hask, awaits_or_outcome (hk.db.attempts _ b hb)⟩

theorem evidence_before_request_killed :
    ∃ s : Sys (Fin 3), Reachable (system Office.platform) Always s ∧ ∃ t ∈ s.arca.sent,
      ∃ b : Attempt, s.db.row (.attempt t.attempt) = some b ∧ Asked b.toEvidence t ∧
        (AwaitsCron b ∨ HasOutcome b) := by
  obtain ⟨s, hs, hsent⟩ := Office.reaches Always
    (Office.posted 0 0 ++ Office.recorded 0 0 0 ++ [.resume 0, .transmit 0, .kill 0])
    (fun s => s.arca.sent != []) (by decide +kernel)
  obtain ⟨t, ht⟩ := List.exists_mem_of_ne_nil _ (bne_iff_ne.mp hsent)
  exact ⟨s, hs, t, ht, (evidence_before_request hs).2 t ht⟩

end ArcaEdi
