import Mathlib.Data.Fintype.Basic
import ArcaEdi.Log
import ArcaEdi.Agreement

/-!
# Vouchers

When a closed attempt is proof that ARCA holds no voucher for it, and when an
invoice has at most one voucher.
-/

namespace ArcaEdi

open Snapshot Runs

variable {W : Type} {P : Platform} {s s' : Sys W} {a : Act W}

/-! ## Requests that are over -/

/-- No request of attempt `i` is on its way: no run is still to send one, and
none that was sent can still be recorded. -/
structure Landed (s : Sys W) (i : Nat) : Prop where
  sent : ∀ w, (s.worker w).job.toSend? ≠ some i
  fates : ∀ t ∈ s.arca.sent, t.attempt = i → ¬ Arca.alive s.clock t

/-- No request of attempt `i` has produced a voucher, and none will. -/
structure Dead (s : Sys W) (i : Nat) : Prop where
  known : i < s.nextAttempt
  landed : Landed s i
  fates : ∀ t ∈ s.arca.sent, t.attempt = i → t.fate ≠ .recorded

theorem dead_no_voucher {i : Nat} (hl : Logged s) (hd : Dead s i) {c : Coordinates} {v : Voucher}
    (hv : s.arca.voucher c = some v) : v.origin ≠ some i := by
  intro horigin
  obtain ⟨t, ht, hti, hf, -⟩ := hl.origin c v i hv horigin
  exact hd.fates t ht hti hf

theorem alive_back {now now' : Nat} {t : Transmission} (hle : now ≤ now') (h : Arca.alive now' t) :
    Arca.alive now t :=
  ⟨h.1, Nat.le_trans hle h.2⟩

variable [DecidableEq W]

theorem dead_step {i : Nat} (hd : Dead s i) (h : Step P s a s') : Dead s' i := by
  have hclock := step_clock h
  refine ⟨Nat.lt_of_lt_of_le hd.known (step_ids h), ⟨fun w hi => ?_, fun t ht hti hal => ?_⟩,
    fun t ht hti => ?_⟩
  · rcases toSend_step h hi with ⟨hold, -⟩ | rfl
    · exact hd.landed.sent w hold
    · exact absurd hd.known (Nat.lt_irrefl _)
  · cases sent_step h ht with
    | kept hu => exact hd.landed.fates t hu hti (alive_back hclock hal)
    | recorded | refused => cases hal.1
    | transmit hw ha => exact hd.landed.sent _ (by rw [hw, ← hti]; rfl)
  · cases sent_step h ht with
    | kept hu => exact hd.fates t hu hti
    | recorded hu hal hv => exact absurd hal (hd.landed.fates _ hu hti)
    | refused | transmit => simp

/-! ## Answers that close an attempt -/

/-- `_reconcile` reads the answer as: there is no such voucher. -/
def deniesVoucher (reply : SoapReply (Option ConsultResponse)) : Bool :=
  match feCompConsultar reply with
  | .ok none => true
  | _ => false

/-- The protocol reads the answer as: the request never reached the network. -/
def deniesRequest (reply : SoapReply (Option CaeResponse)) : Bool :=
  match feCaeSolicitar reply with
  | .error (.arca e) => e.kind == .aborted
  | _ => false

/-- The voucher that a reconciliation asks for, as its transaction sees the attempt. -/
def askedFor (p : DbTx × Nat) : Option Coordinates :=
  (p.1.view (.attempt p.2)).bind fun b => b.coordinates

/-- A reconciliation takes no for an answer only when no request of the attempt
is on its way and ARCA holds no voucher there. A request that was sent is not
taken for one that never left. -/
def closesFinally (s : Sys W) : Act W → Prop
  | .consult w reply => deniesVoucher reply = true → ∀ p ∈ (s.worker w).target?,
    Landed s p.2 ∧ ∀ c ∈ askedFor p, s.arca.voucher c = none
  | .answer _ reply _ => deniesRequest reply = false
  | _ => True

instance [Fintype W] (s : Sys W) (i : Nat) : Decidable (Landed s i) :=
  decidable_of_iff ((∀ w, (s.worker w).job.toSend? ≠ some i) ∧
      ∀ t ∈ s.arca.sent, t.attempt = i → ¬ Arca.alive s.clock t)
    ⟨fun h => ⟨h.1, h.2⟩, fun h => ⟨h.1, h.2⟩⟩

instance [Fintype W] (s : Sys W) (a : Act W) : Decidable (closesFinally s a) :=
  match a with
  | .consult w reply => inferInstanceAs (Decidable (deniesVoucher reply = true →
      ∀ p ∈ (s.worker w).target?, Landed s p.2 ∧ ∀ c ∈ askedFor p, s.arca.voucher c = none))
  | .answer _ reply _ => inferInstanceAs (Decidable (deniesRequest reply = false))
  | .tick | .start _ | .user _ _ | .commit _ | .rollback _ | .request _ _ | .enter _
  | .lastAuthorized _ _ | .checkpoint _ | .resume _ | .sendFails _ _ | .transmit _
  | .reconcileMove _ _ | .reconcileAttempts _ _ | .search _ _ | .isolate _ | .skip _ | .settle _
  | .abort _ | .kill _ | .ticket _ _ | .record _ _ | .refuse _ | .elsewhere _ _ => isTrue trivial

/-! ## Closed attempts are over -/

def Attempt.isClosed (b : Attempt) : Bool := b.state == .aborted || b.state == .rejected

/-- Every closed attempt is over, in the database and in every open transaction. -/
abbrev ClosedDead (s : Sys W) : Prop :=
  AllRows (fun _ _ => True) (fun i b => b.isClosed = true → Dead s i) s

omit [DecidableEq W] in
theorem target_row {w : W} {t : DbTx} {i : Nat} {b : Attempt} (hs : Sound s) (hsc : Scoped s)
    (hw : (s.worker w).target? = some (t, i)) (hb : t.view (.attempt i) = some b)
    (hopen : b.state.isOpen = true) :
    t.snap.row (.attempt i) = some b ∧ ∃ c : Attempt, s.db.row (.attempt i) = some c ∧
      c.toEvidence = b.toEvidence ∧ (c.state = .sent → b.state = .sent) := by
  have hsnap := side_open (target_side hsc hw) hb hopen
  exact ⟨hsnap, (hs.isolated t (live_of_target hw)).since i b hsnap⟩

omit [DecidableEq W] in
theorem reconciles_dead {w : W} {t t' : DbTx} {i m k : Nat} {reply : SoapReply (Option ConsultResponse)}
    {env : Environment} {cuit : Int} {b c : Attempt} {st : ArcaStatus} (hs : Sound s)
    (hsc : Scoped s) (hl : Logged s) (hok : closesFinally s (.consult w reply))
    (hw : (s.worker w).target? = some (t, i))
    (hr : Reconciles s t i reply t' b m k env cuit none c st) : Dead s i := by
  obtain ⟨hlanded, hnone⟩ := hok (by simp [deniesVoucher, hr.answer]) _ hw
  refine ⟨((hs.isolated t (live_of_target hw)).known i b hr.view).1, hlanded, fun u hu hui hf => ?_⟩
  obtain ⟨-, d, hd, hev, -⟩ := target_row hs hsc hw hr.view hr.isOpen
  obtain ⟨d', hd', hask⟩ := hl.asked u hu
  rw [hui, hd] at hd'
  cases hd'
  obtain ⟨v, hv, -⟩ := hl.recorded u hu hf
  have hat : u.coordinates ∈ askedFor (t, i) := by
    rw [askedFor, hr.view]
    exact (hev ▸ asked_coordinates hask : b.toEvidence.coordinates = some u.coordinates)
  rw [hnone _ hat] at hv
  cases hv

theorem outcome_dead {w : W} {se : Option DbTx} {t : DbTx} {m key i : Nat} {r : Request} {stage : Stage}
    {result : Except Exn CaeResult} {b : Attempt} (hs : Sound s) (ho : OneOwner s) (hl : Logged s)
    (hok : closesFinally s a) (h : Step P s a s') (hw : s.worker w = ⟨se, .request m key stage⟩)
    (hf : Finishes s w t i r a stage result) (hc : Concludes result b) (hb : b.isClosed = true) :
    Dead s' i := by
  have howns : (s.worker w).job.attempt? = some i := by
    rw [hw]
    exact attempt_of_running hf.attempt
  have hknown := attempt_known hs howns
  have hrefused : ∀ u ∈ s.arca.sent, u.attempt = i → u.fate = .refused := by
    intro u hu hui
    cases hf with
    | unsent he => exact absurd hui (hl.unsent w i (by rw [hw]; rfl) u hu)
    | answered hh =>
      cases hc with
      | uncertain hst | authorized hst => simp [Attempt.isClosed, hst] at hb
      | aborted hst he hr => simp [closesFinally, deniesRequest, hr, he] at hok
      | rejected hst he hr =>
        simp only [Arca.honestCae_error hr, he, bne_self_eq_false, Bool.false_or, List.all_eq_true,
          Bool.or_eq_true, bne_iff_ne, beq_iff_eq] at hh
        exact (hh u hu).resolve_left (by simpa using hui)
  have hkept : ∀ u ∈ s'.arca.sent, u ∈ s.arca.sent := by
    intro u hu
    cases hf <;>
    · cases sent_step h hu with
      | kept hu => exact hu
  refine ⟨Nat.lt_of_lt_of_le hknown (step_ids h), ⟨fun w' hi => ?_, fun u hu hui hal => ?_⟩,
    fun u hu hui => ?_⟩
  · rcases toSend_step h hi with ⟨hold, hact⟩ | rfl
    · obtain rfl := ho w w' i howns (attempt_of_toSend hold)
      cases hf <;> rcases hact rfl with hact | hact <;> cases hact
    · exact absurd hknown (Nat.lt_irrefl _)
  · have hpending := hal.1
    rw [hrefused u (hkept u hu) hui] at hpending
    cases hpending
  · simp [hrefused u (hkept u hu) hui]

theorem closedDead_step (hs : Sound s) (hsc : Scoped s) (ho : OneOwner s) (hl : Logged s)
    (hok : closesFinally s a) (hd : ClosedDead s) (h : Step P s a s') : ClosedDead s' := by
  have hrows : AllRows (fun _ _ => True) (fun i b => b.isClosed = true → Dead s' i) s :=
    allRows_mono hd (fun _ _ => id) (fun i b hb hc => dead_step (hb hc) h)
  refine allRows_step hs (fun _ _ _ _ => id) (fun _ _ _ => id) ?_ hrows h
  intro t i b ht hrows' hwritten hclosed
  cases hwritten with
  | create hw hreq => simp [Attempt.isClosed, newAttempt] at hclosed
  | outcome hw hf hview hdesc hev hout hc => exact outcome_dead hs ho hl hok h hw hf hc hclosed
  | @reconcile w reply t' i m k env cuit found b b' st hw hr =>
    cases found with
    | none => exact dead_step (reconciles_dead hs hsc hl hok hw hr) h
    | some f => simp [Attempt.isClosed, (hr.isFound f rfl).1] at hclosed

theorem reachable_closedDead (h : Reachable (system P) closesFinally s) : ClosedDead s := by
  refine reachable_inv (fun s hi => initial_allRows hi fun _ => trivial) ?_ h
  intro s a s' hr hok hd h
  exact closedDead_step (reachable_sound hr) (reachable_scoped hr) (reachable_oneOwner hr)
    (reachable_logged hr) hok hd (step_cases h)

/-- In every run whose attempts are closed under the condition, no request of an
aborted or rejected attempt has produced a voucher, and none ever will. -/
theorem closed_attempt_has_no_voucher {t : Sys W} {i : Nat} {b : Attempt}
    (hs : Reachable (system P) closesFinally s) (ht : Leads (system P) Always s t)
    (hb : s.db.row (.attempt i) = some b) (hclosed : b.isClosed = true) (c : Coordinates)
    (v : Voucher) (hv : t.arca.voucher c = some v) : v.origin ≠ some i := by
  have hs' : Reachable (system P) Always s := reachable_mono (fun _ _ _ _ _ => trivial) hs
  have hdead : Dead s i := (reachable_closedDead hs).db.attempts i b hb hclosed
  have hlater : Dead t i := leads_keep (P := fun u => Dead u i) hs'
    (fun u a u' _ _ hd h => dead_step hd (step_cases h)) ht hdead
  exact dead_no_voucher (reachable_logged (leads_reachable hs' ht)) hlater hv

namespace Office

def numbered (number : Nat) : Coordinates := ⟨⟨.testing, 20123456786, 1, 6⟩, number⟩

def holds (s : Sys (Fin 3)) (number i : Nat) : Bool :=
  (s.arca.voucher (numbered number)).any (·.origin == some i)

theorem holds_spec {s : Sys (Fin 3)} {number i : Nat} (h : holds s number i = true) :
    ∃ v, s.arca.voucher (numbered number) = some v ∧ v.origin = some i := by
  obtain ⟨v, hv, horigin⟩ := (Option.any_eq_true _ _).mp h
  exact ⟨v, hv, beq_iff_eq.mp horigin⟩

end Office

theorem closed_attempt_has_no_voucher_refused :
    ∃ (s t : Sys (Fin 3)) (b : Attempt) (v : Voucher),
      Leads (system Office.platform) Always s t ∧ s.db.row (.attempt 0) = some b ∧
      b.state = .rejected ∧ t.arca.voucher (Office.numbered 1) = some v ∧ v.origin ≠ some 0 := by
  obtain ⟨s, t, hs, ht, hst⟩ := Office.reaches_then closesFinally
    (Office.posted 0 0 ++ Office.recorded 0 0 0 ++
      [.resume 0, .transmit 0, .refuse 0, .answer 0 Office.refusal 900, .settle 0, .commit 0])
    (Office.recorded 0 0 0 ++ Office.approved 0 1 "74000000000001")
    (fun s t => Office.attemptIs s 0 0 .rejected && Office.holds t 1 1) (by decide +kernel)
  rw [Bool.and_eq_true] at hst
  obtain ⟨b, hb, -, hrejected⟩ := Office.attemptIs_spec hst.1
  obtain ⟨v, hv, -⟩ := Office.holds_spec hst.2
  have ht' := leads_mono (fun _ _ _ _ => trivial) hs ht
  exact ⟨s, t, b, v, ht', hb, hrejected, hv, closed_attempt_has_no_voucher hs ht' hb
    (by simp [Attempt.isClosed, hrejected]) _ v hv⟩

/-- The answer is lost, the cron asks before ARCA has recorded the request, and
closes the attempt. ARCA records it afterwards. -/
theorem orphan_voucher :
    ∃ (s t : Sys (Fin 3)) (b : Attempt) (v : Voucher), Reachable (system Office.platform) Always s ∧
      Leads (system Office.platform) Always s t ∧ s.db.row (.attempt 0) = some b ∧
      b.state = .aborted ∧ t.arca.voucher (Office.numbered 1) = some v ∧ v.origin = some 0 := by
  obtain ⟨s, t, hs, ht, hst⟩ := Office.reaches_then Always
    (Office.posted 0 0 ++ Office.recorded 0 0 0 ++ Office.lost 0 ++ Office.cron 1 Office.noVoucher)
    [.record 0 "74000000000001"]
    (fun s t => Office.attemptIs s 0 0 .aborted && Office.holds t 1 0) (by decide +kernel)
  rw [Bool.and_eq_true] at hst
  obtain ⟨b, hb, -, haborted⟩ := Office.attemptIs_spec hst.1
  obtain ⟨v, hv, horigin⟩ := Office.holds_spec hst.2
  exact ⟨s, t, b, v, hs, ht, hb, haborted, hv, horigin⟩

/-! ## One voucher for each invoice -/

/-- Voucher `c` was created by a request made for invoice `m`. -/
def VoucherOf (s : Sys W) (c : Coordinates) (m : Nat) : Prop :=
  ∃ v i b, s.arca.voucher c = some v ∧ v.origin = some i ∧
    s.db.row (.attempt i) = some b ∧ b.moveId = some m

omit [DecidableEq W] in
theorem resuming_live {w : W} {m i : Nat} (hs : Sound s) (hd : ClosedDead s)
    (hr : (s.worker w).job.resuming? = some (m, i)) : ∃ b, LiveAttempt s.db.row m i b := by
  obtain ⟨r, b, hb, hdesc⟩ := resuming_made hs hr
  refine ⟨b, hb, hdesc.move, ?_⟩
  cases hst : b.state with
  | sent | uncertain | authorized => rfl
  | rejected | aborted =>
    have hdead := hd.db.attempts i b hb (by simp [Attempt.isClosed, hst])
    obtain ⟨key, r', hw⟩ := resuming_spec hr
    exact absurd (by rw [hw]; rfl) (hdead.landed.sent w)

theorem closesFinally_rejoins (h : Reachable (system P) closesFinally s) :
    Reachable (system P) (fun s a => rejoinsAlone s a = true) s := by
  refine reachable_mono ?_ h
  intro s a hr hr' _
  cases a with
  | resume w =>
    cases hp : (s.worker w).job.resuming? with
    | none => simp [rejoinsAlone, hp]
    | some p =>
      obtain ⟨b, hb⟩ := resuming_live (reachable_sound hr) (reachable_closedDead hr) hp
      simp [rejoinsAlone, hp, not_othersLive ((reachable_agreed hr').db p.1) hb]
  | _ => rfl

/-- In every run whose attempts are closed under the condition, ARCA holds at
most one voucher created by requests for an invoice. -/
theorem one_voucher_per_invoice {c c' : Coordinates} {m : Nat}
    (hs : Reachable (system P) closesFinally s) (hc : VoucherOf s c m) (hc' : VoucherOf s c' m) :
    c = c' := by
  have hl := reachable_logged hs
  have hagree := (reachable_agreed (closesFinally_rejoins hs)).db m
  have hlive : ∀ {c v i b}, s.arca.voucher c = some v → v.origin = some i →
      s.db.row (.attempt i) = some b → b.moveId = some m → LiveAttempt s.db.row m i b := by
    intro c v i b hv horigin hb hm
    refine ⟨hb, hm, ?_⟩
    cases hst : b.state with
    | sent | uncertain | authorized => rfl
    | rejected | aborted =>
      have hdead := (reachable_closedDead hs).db.attempts i b hb (by simp [Attempt.isClosed, hst])
      exact absurd horigin (dead_no_voucher hl hdead hv)
  obtain ⟨v, i, b, hv, horigin, hb, hm⟩ := hc
  obtain ⟨v', i', b', hv', horigin', hb', hm'⟩ := hc'
  obtain rfl := hagree.unique i i' b b' (hlive hv horigin hb hm) (hlive hv' horigin' hb' hm')
  obtain ⟨t, ht, hti, -, rfl⟩ := hl.origin c v i hv horigin
  obtain ⟨t', ht', hti', -, rfl⟩ := hl.origin c' v' i hv' horigin'
  obtain ⟨d, hd, hask⟩ := hl.asked t ht
  obtain ⟨d', hd', hask'⟩ := hl.asked t' ht'
  rw [hti] at hd
  rw [hti', hd] at hd'
  cases hd'
  exact Option.some.inj ((asked_coordinates hask).symm.trans (asked_coordinates hask'))

theorem one_voucher_per_invoice_approved :
    ∃ s : Sys (Fin 3), Reachable (system Office.platform) closesFinally s ∧
      VoucherOf s (Office.numbered 1) 0 ∧ ∀ c, VoucherOf s c 0 → c = Office.numbered 1 := by
  obtain ⟨s, hs, hst⟩ := Office.reaches closesFinally
    (Office.posted 0 0 ++ Office.recorded 0 0 0 ++ Office.approved 0 0 "74000000000001")
    (fun s => Office.holds s 1 0 && Office.attemptIs s 0 0 .authorized) (by decide +kernel)
  rw [Bool.and_eq_true] at hst
  obtain ⟨v, hv, horigin⟩ := Office.holds_spec hst.1
  obtain ⟨b, hb, hm, -⟩ := Office.attemptIs_spec hst.2
  have hvoucher : VoucherOf s (Office.numbered 1) 0 := ⟨v, 0, b, hv, horigin, hb, hm⟩
  exact ⟨s, hs, hvoucher, fun c hc => one_voucher_per_invoice hs hc hvoucher⟩

/-- The orphan voucher of an invoice, which then takes the next number and asks again. -/
theorem two_vouchers :
    ∃ (s : Sys (Fin 3)) (c c' : Coordinates), Reachable (system Office.platform) Always s ∧
      VoucherOf s c 0 ∧ VoucherOf s c' 0 ∧ c ≠ c' := by
  obtain ⟨s, hs, hst⟩ := Office.reaches Always
    (Office.posted 0 0 ++ Office.recorded 0 0 0 ++ Office.lost 0 ++ Office.cron 1 Office.noVoucher ++
      [.record 0 "74000000000001"] ++ Office.renumbered 0 1 2 ++ Office.recorded 0 0 1 ++
      Office.approved 0 1 "74000000000002")
    (fun s => (Office.holds s 1 0 && Office.attemptIs s 0 0 .aborted) &&
      (Office.holds s 2 1 && Office.attemptIs s 1 0 .authorized)) (by decide +kernel)
  simp only [Bool.and_eq_true] at hst
  obtain ⟨⟨h1, a1⟩, h2, a2⟩ := hst
  obtain ⟨v, hv, horigin⟩ := Office.holds_spec h1
  obtain ⟨b, hb, hm, -⟩ := Office.attemptIs_spec a1
  obtain ⟨v', hv', horigin'⟩ := Office.holds_spec h2
  obtain ⟨b', hb', hm', -⟩ := Office.attemptIs_spec a2
  exact ⟨s, _, _, hs, ⟨v, 0, b, hv, horigin, hb, hm⟩, ⟨v', 1, b', hv', horigin', hb', hm'⟩,
    by decide⟩

end ArcaEdi
