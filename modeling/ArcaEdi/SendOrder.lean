import ArcaEdi.Alone
import ArcaEdi.Requests

/-!
# The order of the requests

Every request asks for the number that follows the last one that ARCA had told its run.
So an attempt leaves at most once, and ARCA records what left in the order in which it left.
-/

namespace ArcaEdi

open Raise Snapshot Runs

variable {W : Type} {P : Platform} {s s' : Sys W} {a : Act W} {E : Nat → Environment}

/-! ## Two views of a request -/

abbrev Transmission.line (t : Transmission) : Line := t.coordinates.line
abbrev Transmission.number (t : Transmission) : Nat := t.coordinates.number

/-- The line of a request that a worker holds, with the environment of each certificate. -/
def Request.line? (E : Nat → Environment) (r : Request) : Option Line :=
  (PyText.int? r.issuerCuit).map fun cuit =>
    ⟨E r.certificateId, cuit, r.header.ptoVta, r.header.cbteTipo⟩

/-- No request is further than the number that comes next, and where one is recorded, all
that left before it on its line were not further than it. -/
structure InTurn (E : Nat → Environment) (s : Sys W) : Prop where
  jobs : ∀ w, ∀ r ∈ (s.worker w).job.request?, ∀ line ∈ r.line? E,
    r.detail.cbteDesde ≤ s.arca.last line + 1
  sent : ∀ t ∈ s.arca.sent, t.number ≤ s.arca.last t.line + 1
  ordered : ∀ (j k : Nat) (t u : Transmission), j < k → s.arca.sent[j]? = some t →
    s.arca.sent[k]? = some u → t.line = u.line → u.fate = .recorded → t.number ≤ u.number

/-! ## What a step does to ARCA -/

section Books

variable {arca arca' : Arca} {c : Coordinates} {v : Voucher}

theorem issue_last (h : arca.issue c v = some arca') :
    c.number = arca.last c.line + 1 ∧ arca'.last = Function.update arca.last c.line c.number := by
  unfold Arca.issue at h
  split at h
  · next hc =>
    cases h
    exact ⟨hc.1, rfl⟩
  · cases h

theorem issue_last_le (h : arca.issue c v = some arca') (line : Line) :
    arca.last line ≤ arca'.last line := by
  obtain ⟨hnumber, hlast⟩ := issue_last h
  rw [hlast]
  by_cases hline : line = c.line
  · rw [hline, Function.update_self, hnumber]
    exact Nat.le_succ _
  · rw [Function.update_of_ne hline]

end Books

variable [DecidableEq W]

theorem last_step (h : Step P s a s') (line : Line) : s.arca.last line ≤ s'.arca.last line := by
  cases h with
  | record h =>
    obtain ⟨u, -, -, hissue⟩ := record_spec h
    exact issue_last_le hissue line
  | refuse h =>
    obtain ⟨u, -, -, rfl⟩ := refuse_spec h
    exact Nat.le_refl _
  | elsewhere h => exact issue_last_le h line
  | _ => exact Nat.le_refl _

/-- Where the transmission at one place of the list comes from. -/
inductive PlaceStep (s : Sys W) (k : Nat) : Transmission → Prop
  | kept {t : Transmission} (ht : s.arca.sent[k]? = some t) : PlaceStep s k t
  | recorded {t : Transmission} (ht : s.arca.sent[k]? = some t)
      (hnext : t.number = s.arca.last t.line + 1) : PlaceStep s k { t with fate := .recorded }
  | refused {t : Transmission} (ht : s.arca.sent[k]? = some t) :
      PlaceStep s k { t with fate := .refused }
  | transmit {w : W} {se : Option DbTx} {m key i : Nat} {tx : DbTx} {r : Request}
      {env : Environment} {cuit : Int} (hk : k = s.arca.sent.length)
      (hw : s.worker w = ⟨se, .request m key (.sending tx i r)⟩)
      (ha : Sys.auth s.clock tx.view r.certificateId r.issuerCuit = some (env, cuit)) :
      PlaceStep s k ⟨i, env, cuit, r.header, r.detail, s.clock, .pending⟩

theorem getElem?_modify_cases {α : Type*} {l : List α} {n k : Nat} {f : α → α} {x : α}
    (h : (l.modify n f)[k]? = some x) : l[k]? = some x ∨ n = k ∧ ∃ y, l[k]? = some y ∧ x = f y := by
  rw [List.getElem?_modify] at h
  obtain ⟨y, hy, rfl⟩ := Option.map_eq_some_iff.mp h
  by_cases hnk : n = k
  · exact .inr ⟨hnk, y, hy, by simp [hnk]⟩
  · exact .inl (by simpa [hnk] using hy)

theorem place_step {k : Nat} {t : Transmission} (h : Step P s a s') (ht : s'.arca.sent[k]? = some t) :
    PlaceStep s k t := by
  cases h with
  | transmit hw ha =>
    rw [List.getElem?_append] at ht
    split at ht
    · exact .kept ht
    · next hk =>
      obtain ⟨hzero, rfl⟩ := List.getElem?_eq_some_iff.mp ht
      have hlast : k = s.arca.sent.length := by simp at hzero; omega
      simp only [List.getElem_singleton]
      exact .transmit hlast hw ha
  | record h =>
    obtain ⟨u, hu, -, hissue⟩ := record_spec h
    rw [(issue_spec hissue).2.1] at ht
    rcases getElem?_modify_cases ht with ht | ⟨rfl, y, hy, rfl⟩
    · exact .kept ht
    · rw [hu] at hy
      cases hy
      exact .recorded hu (issue_last hissue).1
  | refuse h =>
    obtain ⟨u, hu, -, rfl⟩ := refuse_spec h
    rcases getElem?_modify_cases ht with ht | ⟨rfl, y, hy, rfl⟩
    · exact .kept ht
    · exact .refused hy
  | elsewhere h =>
    rw [(issue_spec h).2.1] at ht
    exact .kept ht
  | _ => exact .kept ht

/-! ## What a run was told -/

theorem lastAuthorized_number {w : W} {reply : SoapReply UltimoAutorizado} {r : Request} {line : Line}
    (hk : Kept E s) (h : step P s (.lastAuthorized w reply) = some s')
    (hr : (s'.worker w).job.request? = some r) (hline : r.line? E = some line) :
    r.detail.cbteDesde = s.arca.last line + 1 := by
  simp only [step, Sys.lastAuthorized] at h
  split at h
  · next se m key tx c hw =>
    split at h
    · next env cuit ha =>
      split at h
      · next hhonest =>
        split at h
        · next tx' r' hcreate =>
          cases h
          obtain ⟨last, hlast, hcreate⟩ := bind_eq_ok.mp hcreate
          obtain rfl : r' = r := by simpa [Sys.setWorker, Job.request?, Stage.request?] using hr
          obtain ⟨header, detail, hreq, rfl, -⟩ := create_spec hcreate
          obtain ⟨rfl, hdesde, -, -⟩ := prepareRequest_spec hreq
          obtain ⟨-, henv, hcuit⟩ := auth_spec ha
          have hE : E c.certificateId = env :=
            (((hk.views tx (live_work hw rfl)).certificates _).environment).symm.trans henv
          simp only [Request.line?, hcuit, Option.map_some, Option.some.injEq] at hline
          unfold authorizeCreate at hcreate
          obtain ⟨⟨⟩, hcheck, -⟩ := bind_eq_ok.mp hcreate
          rw [← hline, hE, ← (honest_last hlast).mp hhonest]
          exact hdesde.trans (checkSequence_iff.mp hcheck)
        · cases h
          simp [Sys.endRun, Sys.setWorker, Job.request?] at hr
      · cases h
    · cases h
  · cases h

omit [DecidableEq W] in
theorem transmit_line {w : W} {se : Option DbTx} {m key i : Nat} {tx : DbTx} {r : Request}
    {env : Environment} {cuit : Int} (hk : Kept E s)
    (hw : s.worker w = ⟨se, .request m key (.sending tx i r)⟩)
    (ha : Sys.auth s.clock tx.view r.certificateId r.issuerCuit = some (env, cuit)) :
    r.line? E = some ⟨env, cuit, r.header.ptoVta, r.header.cbteTipo⟩ := by
  obtain ⟨-, henv, hcuit⟩ := auth_spec ha
  rw [Request.line?, hcuit, ← henv,
    ((hk.views tx (live_work hw rfl)).certificates _).environment]
  rfl

/-! ## The invariant -/

theorem inTurn_step (hk : Kept E s) (hi : InTurn E s) (h : step P s a = some s') : InTurn E s' := by
  have hstep := step_cases h
  have hlast := last_step hstep
  refine ⟨fun w r hr line hline => ?_, fun t ht => ?_, fun j k t u hjk hj hk' hline hf => ?_⟩
  · rcases jobRequest_step hstep hr with hold | ⟨reply, -, -, -, -, -, -, rfl, -, -⟩
    · exact (hi.jobs w r hold line hline).trans (Nat.succ_le_succ (hlast line))
    · rw [lastAuthorized_number hk h hr hline]
      exact Nat.succ_le_succ (hlast line)
  · refine Nat.le_trans ?_ (Nat.succ_le_succ (hlast t.line))
    cases sent_step hstep ht with
    | kept hu => exact hi.sent t hu
    | recorded hu => exact (hi.sent _ hu :)
    | refused hu => exact (hi.sent _ hu :)
    | @transmit w se m key i tx r env cuit hw ha =>
      exact hi.jobs w r (by rw [hw]; rfl) _ (transmit_line hk hw ha)
  · -- Whatever the step did to the earlier one, its line and number were there before it.
    have hbefore : ∀ {n : Nat} {x : Transmission}, PlaceStep s n x → n < s.arca.sent.length →
        ∃ y, s.arca.sent[n]? = some y ∧ y.line = x.line ∧ y.number = x.number := by
      intro n x hplace hn
      cases hplace with
      | kept hx => exact ⟨x, hx, rfl, rfl⟩
      | recorded hx => exact ⟨_, hx, rfl, rfl⟩
      | refused hx => exact ⟨_, hx, rfl, rfl⟩
      | transmit hlen => exact absurd hlen (Nat.ne_of_lt hn)
    cases place_step hstep hk' with
    | kept hu =>
      obtain ⟨t', ht', hl, hn⟩ :=
        hbefore (place_step hstep hj) (hjk.trans (List.getElem?_eq_some_iff.mp hu).1)
      exact hn ▸ hi.ordered j k t' u hjk ht' hu (hl.trans hline) hf
    | @recorded u hu hnext =>
      obtain ⟨t', ht', hl, hn⟩ :=
        hbefore (place_step hstep hj) (hjk.trans (List.getElem?_eq_some_iff.mp hu).1)
      have hle := hi.sent t' (List.mem_of_getElem? ht')
      have hsame : t'.line = u.line := hl.trans hline
      rw [hsame, ← hnext, hn] at hle
      exact hle
    | refused | transmit => cases hf

theorem reachable_inTurn {ok : Sys W → Act W → Prop} (h : Reachable (system P) ok s) :
    ∃ E, Kept E s ∧ InTurn E s := by
  refine reachable_inv (P := fun s => ∃ E, Kept E s ∧ InTurn E s) ?_ ?_ h
  · intro s hi
    obtain ⟨E, hk⟩ := reachable_kept (.init hi : Reachable (system P) ok s)
    refine ⟨E, hk, ?_, ?_, ?_⟩
    · intro w r hr
      rw [hi.workers w] at hr
      cases hr
    · simp [hi.sent]
    · simp [hi.sent]
  · rintro s a s' hr _ ⟨E, hk, hi⟩ h
    exact ⟨E, kept_step (reachable_sound hr) hk (step_cases h), inTurn_step hk hi h⟩

/-! ## Once each, and in order -/

theorem attempts_step (hl : Logged s) (hn : (s.arca.sent.map (·.attempt)).Nodup) (h : Step P s a s') :
    (s'.arca.sent.map (·.attempt)).Nodup := by
  have hsettle : ∀ n fate, (s.arca.settle n fate).sent.map (·.attempt) = s.arca.sent.map (·.attempt) := by
    intro n fate
    refine List.ext_getElem? fun k => ?_
    simp only [Arca.settle, List.getElem?_map, List.getElem?_modify]
    cases s.arca.sent[k]? with
    | none => rfl
    | some t => by_cases hnk : n = k <;> simp [hnk]
  cases h with
  | @transmit w se m key i tx r env cuit hw ha =>
    rw [List.map_append, List.map_singleton, ← List.concat_eq_append]
    refine hn.concat fun hin => ?_
    obtain ⟨t, ht, hti⟩ := List.mem_map.mp hin
    exact hl.unsent w i (by rw [hw]; rfl) t ht hti
  | record h =>
    obtain ⟨u, -, -, hissue⟩ := record_spec h
    rw [(issue_spec hissue).2.1, hsettle]
    exact hn
  | refuse h =>
    obtain ⟨u, -, -, rfl⟩ := refuse_spec h
    rw [hsettle]
    exact hn
  | elsewhere h =>
    rw [(issue_spec h).2.1]
    exact hn
  | _ => exact hn

theorem reachable_attempts {ok : Sys W → Act W → Prop} (h : Reachable (system P) ok s) :
    (s.arca.sent.map (·.attempt)).Nodup := by
  refine reachable_inv (P := fun s : Sys W => (s.arca.sent.map (·.attempt)).Nodup) ?_ ?_ h
  · intro s hi
    simp [hi.sent]
  · exact fun s a s' hr _ hn h => attempts_step (reachable_logged hr) hn (step_cases h)

/-- In every run an attempt leaves once at most, no request is further than the next number
of its line, and the ones that ARCA records stand in the order of their numbers: where
one is recorded, what left earlier on its line was not further, nor for the same number. -/
theorem sent_in_order (h : Reachable (system P) Always s) :
    (s.arca.sent.map (·.attempt)).Nodup ∧
      (∀ t ∈ s.arca.sent, t.number ≤ s.arca.last t.line + 1) ∧
      ∀ (j k : Nat) (t u : Transmission), j < k → s.arca.sent[j]? = some t →
        s.arca.sent[k]? = some u → t.line = u.line → u.fate = .recorded →
          t.number ≤ u.number ∧ (t.fate = .recorded → t.number < u.number) := by
  obtain ⟨E, -, hi⟩ := reachable_inTurn h
  have hl := reachable_logged h
  have hnodup := reachable_attempts h
  refine ⟨hnodup, hi.sent, fun j k t u hjk hj hk hline hu => ?_⟩
  have hle := hi.ordered j k t u hjk hj hk hline hu
  refine ⟨hle, fun ht => Nat.lt_of_le_of_ne hle fun hnumber => ?_⟩
  -- Two recorded requests for one voucher would be two attempts that it came from.
  obtain ⟨v, hv, hvt⟩ := hl.recorded t (List.mem_of_getElem? hj) ht
  obtain ⟨v', hv', hvu⟩ := hl.recorded u (List.mem_of_getElem? hk) hu
  have hsame : t.coordinates = u.coordinates := congrArg₂ Coordinates.mk hline hnumber
  rw [hsame, hv'] at hv
  cases hv
  have hattempt : t.attempt = u.attempt := Option.some.inj (hvt.symm.trans hvu)
  refine List.nodup_iff_getElem?_ne_getElem?.mp hnodup j k hjk ?_ ?_
  · simpa using (List.getElem?_eq_some_iff.mp hk).1
  · rw [List.getElem?_map, List.getElem?_map, hj, hk, Option.map_some, Option.map_some, hattempt]

theorem sent_in_order_two :
    ∃ s : Sys (Fin 3), Reachable (system Office.platform) Always s ∧
      ∃ t u : Transmission, s.arca.sent[0]? = some t ∧ s.arca.sent[1]? = some u ∧
        t.attempt ≠ u.attempt ∧ u.number ≤ s.arca.last u.line + 1 ∧ t.number < u.number := by
  obtain ⟨s, hs, hst⟩ := Office.reaches Always
    (Office.posted 0 0 ++ Office.recorded 0 0 0 ++ Office.approved 0 0 "74000000000001" ++
      [.start 2, .user 2 (.edit 3 (Office.form 1 2)), .user 2 (.posting 3 none), .commit 2] ++
      Office.recorded 1 3 1 ++ Office.approved 1 1 "74000000000002")
    (fun s => s.arca.sent[0]?.any fun t => s.arca.sent[1]?.any fun u =>
      (t.line == u.line && t.fate == .recorded) && (u.fate == .recorded && t.attempt != u.attempt))
    (by decide +kernel)
  obtain ⟨t, ht, hst⟩ := (Option.any_eq_true _ _).mp hst
  obtain ⟨u, hu, hst⟩ := (Option.any_eq_true _ _).mp hst
  simp only [Bool.and_eq_true, beq_iff_eq, bne_iff_ne] at hst
  obtain ⟨⟨hline, htf⟩, huf, hne⟩ := hst
  obtain ⟨-, hnext, horder⟩ := sent_in_order hs
  exact ⟨s, hs, t, u, ht, hu, hne, hnext u (List.mem_of_getElem? hu),
    (horder 0 1 t u (by decide) ht hu hline huf).2 htf⟩

end ArcaEdi
