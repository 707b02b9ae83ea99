import ArcaEdi.Agreement

/-!
# The invoice and the voucher it asked for

An attempt records its coordinates by value while the invoice stays open to
changes. When the two still match.
-/

namespace ArcaEdi

open Snapshot Runs

/-! ## One invoice -/

/-- The invoice is posted, and asks for what the attempt recorded. -/
structure Matches (move : Move) (e : Evidence) : Prop where
  posted : move.state = .posted
  companyId : move.companyId = e.companyId
  parts : move.documentNumberParts = .ok (e.posNumber, e.documentNumber)
  documentTypeCode : move.documentTypeCode = .ok e.documentTypeCode
  amounts : move.amounts e.documentTypeCode = .ok (e.requestPayload.amounts, e.requestPayload.iva)

/-- The live attempts of an invoice record what the invoice says. -/
def Matched (v : View) (m : Nat) : Prop :=
  ∀ i b, LiveAttempt v m i b → Matches (v (.move m)) b.toEvidence

theorem matched_local : Local Matched := by
  intro A B m hAB hA i b hb
  have hrow : A (.attempt i) = some b := by
    rw [hAB.rows (.attempt i) (.inr (by rw [hb.row]; exact guard_attempt hb.move)), hb.row]
  rw [← hAB.root]
  exact hA i b ⟨hrow, hb.move, hb.live⟩

theorem matches_status {move : Move} {e : Evidence} (h : Matches move e) (st : ArcaStatus) :
    Matches { move with toArcaStatus := st } e :=
  ⟨h.posted, h.companyId, h.parts, h.documentTypeCode, h.amounts⟩

theorem matched_pairWrite {t : DbTx} {i m : Nat} {b : Attempt} {st : ArcaStatus}
    (h : ∀ m, Matched t.view m) (hold : ∀ a, t.view (.attempt i) = some a → a.moveId = some m)
    (hb : b.moveId = some m) (hnew : Matches (t.view (.move m)) b.toEvidence) :
    ∀ m', Matched (pairWrite t i b m st).view m' := by
  intro m'
  by_cases hm : m' = m
  · subst hm
    intro j c hc
    rw [pairWrite_move_self]
    by_cases hj : j = i
    · subst hj
      have hrow := hc.row
      rw [pairWrite_attempt_self] at hrow
      cases hrow
      exact matches_status hnew st
    · have hrow := hc.row
      rw [pairWrite_attempt_ne hj] at hrow
      exact matches_status (h m' j c ⟨hrow, hc.move, hc.live⟩) st
  · exact matched_local _ _ m' (sameGroup_pairWrite hm hold hb) (h m')

/-! ## Users -/

/-- The invoice has no request in the air. -/
def NotProcessing (move : Move) : Prop := move.arcaState ≠ .processing

theorem matched_write_move {t : DbTx} {m : Nat} {v : Move} (hagree : Agree t.view m)
    (h : Matched t.view m) (hv : MoveWrite NotProcessing (t.view (.move m)) v) :
    Matched (t.write (.move m) v).view m := by
  intro i b hb
  have hlive : LiveAttempt t.view m i b := by
    refine ⟨?_, hb.move, hb.live⟩
    rw [← hb.row, write_view_ne _ _ (by simp)]
  have hold := h i b hlive
  have hst := hagree.state i b hlive
  rw [write_view_self]
  generalize (t.view (.move m) : Move) = old at hv hold hst
  cases hv with
  | post hd => simp [hold.posted] at hd
  | edit hd => simp [hold.posted] at hd
  | mark hn => exact ⟨hold.posted, hold.companyId, hold.parts, hold.documentTypeCode, hold.amounts⟩
  | draft ha hu hp =>
    -- An invoice with a live attempt is in one of the three states that the condition keeps posted.
    cases hs : old.arcaState with
    | authorized => exact absurd hs ha
    | uncertain => exact absurd hs hu
    | processing => exact absurd hs hp
    | notRequired | pending | rejected => simp [hs, expected] at hst

theorem matched_user {now : Nat} {K : Nat → Company → Prop} {t t' : DbTx}
    (hagree : ∀ m, Agree t.view m) (h : ∀ m, Matched t.view m)
    (hu : UserWrites now NotProcessing K t t') : ∀ m, Matched t'.view m := by
  induction hu with
  | refl => exact h
  | tail hprev hu ih =>
    intro m
    cases hu with
    | company | journal | certificate =>
      exact matched_local _ _ m (sameGroup_write (by simp) (by simp)) (ih m)
    | @move m' v hv =>
      by_cases hm : m = m'
      · subst hm
        exact matched_write_move (agree_user hagree hprev m) (ih m) hv
      · exact matched_local _ _ m (sameGroup_write (by simpa using Ne.symm hm) (by simp)) (ih m)

/-! ## The invariant -/

variable {W : Type} {P : Platform} {s s' : Sys W} {a : Act W} {w : W}

/-- The issuer CUIT, where the company has a valid one. -/
def Company.cuit? (company : Company) : Option String := company.issuerCuit.toOption

/-- A run takes its second snapshot only while its own attempt is live, no invoice
in processing goes back to draft, and no company changes its CUIT. -/
def keepsInvoices (s : Sys W) : Act W → Bool
  | .resume w => (s.worker w).job.resuming?.all fun p =>
    (s.db.row (.attempt p.2)).any (·.state.isLive)
  | .user w (.resetToDraft m) => (s.worker w).session.all fun t =>
    (t.view (.move m) : Move).arcaState != .processing
  | .user w (.writeCompany c company) => (s.worker w).session.all fun t =>
    company.cuit? == (t.view (.company c) : Company).cuit?
  | _ => true

structure MatchedAll (s : Sys W) : Prop where
  db : ∀ m, Matched s.db.row m
  views : ∀ t, Live s t → ∀ m, Matched t.view m
  own : ∀ w m i t, (s.worker w).job.InFlight m i t → ∃ b, LiveAttempt t.view m i b

theorem create_matches {now m last : Nat} {t t' : DbTx} {c : Intent} {r : Request} {i : Nat}
    (hstart : authorizeStart now t.view m = .ok c)
    (h : authorizeCreate P s.clock t m i c last = .ok (t', r)) :
    ∃ b st, t' = pairWrite t i b m st ∧ b.moveId = some m ∧
      Matches (t.view (.move m)) b.toEvidence := by
  obtain ⟨header, detail, hreq, -, rfl⟩ := create_spec h
  obtain ⟨hready, -, -, hparts, hcode⟩ := authorizeStart_spec hstart
  obtain ⟨-, -, -, hamounts⟩ := prepareRequest_spec hreq
  exact ⟨_, _, rfl, rfl, (checkReady_spec hready).1, rfl, hparts, hcode, hamounts⟩

theorem matched_writes {t t' : DbTx} (hs : Sound s) (hag : Agreed s) (hok : keepsInvoices s a = true)
    (hma : MatchedAll s) (hw : Writes P s a t t') : ∀ m, Matched t'.view m := by
  have ht := hma.views t hw.live
  have hagree := hag.views t hw.live
  cases hw with
  | @user w t t' op hw h =>
    refine matched_user (K := fun _ _ => True) hagree ht (user_spec ?_ (fun _ _ _ => trivial) h)
    rintro m rfl hp
    simp [keepsInvoices, hw, hp] at hok
  | @create w reply se m key last t t' c r hw h =>
    obtain ⟨-, now, hstart⟩ := job_sound hs hw
    obtain ⟨b, st, rfl, hm, hmatch⟩ := create_matches hstart h
    exact matched_pairWrite ht (fun c hc => by rw [asking_fresh hs hw] at hc; cases hc) hm hmatch
  | @outcome a w se m key i durationMs t t' r stage result hw hf h =>
    obtain ⟨-, b, hb, hd⟩ := made_of_finishes hs hw hf
    obtain ⟨b', st, rfl, hev, -, -⟩ := outcome_spec hb h
    obtain ⟨c, hc⟩ := hma.own w m i t (by rw [hw]; exact hf.inFlight)
    have hcb : c = b := Option.some.inj (hc.row.symm.trans hb)
    have hmove : b'.moveId = some m := (congrArg Evidence.moveId hev).trans hd.move
    refine matched_pairWrite ht (row_moveId hb hd.move) hmove ?_
    rw [hev, ← hcb]
    exact ht m i c hc
  | reconcile hw h =>
    obtain ⟨b, m, k, env, cuit, found, b', st, hr⟩ :=
      reconcile_spec (attempt_has_move hs (live_of_target hw)) h
    obtain rfl := hr.write
    have hmove : b'.moveId = some m := (congrArg Evidence.moveId hr.evidence).trans hr.move
    have hlive : LiveAttempt t.view m _ b :=
      ⟨hr.view, hr.move, by simp [AttemptState.isLive, hr.isOpen]⟩
    refine matched_pairWrite ht (row_moveId hr.view hr.move) hmove ?_
    rw [hr.evidence]
    exact ht m _ b hlive

variable [DecidableEq W]

theorem matchedAll_step (hs : Sound s) (hag : Agreed s) (hok : keepsInvoices s a = true)
    (hma : MatchedAll s) (h : Step P s a s') : MatchedAll s' := by
  obtain ⟨hdb, hviews⟩ := groups_step matched_local hs h
    (fun t t' hw _ => matched_writes hs hag hok hma hw) hma.db hma.views
  refine ⟨hdb, hviews, fun w m i t hf => ?_⟩
  rcases inFlight_step h hf with hf | ⟨rfl, rfl, hr⟩
  · exact hma.own w m i t hf
  · simp only [keepsInvoices, hr, Option.all_some] at hok
    obtain ⟨b, hb, hlive⟩ := (Option.any_eq_true _ _).mp hok
    obtain ⟨r, c, hc, hd⟩ := resuming_made hs hr
    have hcb : c = b := Option.some.inj (hc.symm.trans hb)
    exact ⟨b, hb, hcb ▸ hd.move, hlive⟩

theorem keepsInvoices_rejoins (h : Reachable (system P) (fun s a => keepsInvoices s a = true) s) :
    Reachable (system P) (fun s a => rejoinsAlone s a = true) s := by
  refine reachable_mono ?_ h
  intro s a hr hr' hok
  cases a with
  | resume w =>
    cases hp : (s.worker w).job.resuming? with
    | none => simp [rejoinsAlone, hp]
    | some p =>
      obtain ⟨r, b, hb, hd⟩ := resuming_made (reachable_sound hr) hp
      simp only [keepsInvoices, hp, Option.all_some, hb, Option.any_some] at hok
      simp [rejoinsAlone, hp, not_othersLive ((reachable_agreed hr').db p.1) ⟨hb, hd.move, hok⟩]
  | _ => rfl

theorem reachable_matched (h : Reachable (system P) (fun s a => keepsInvoices s a = true) s) :
    MatchedAll s := by
  refine reachable_inv ?_ ?_ h
  · intro s hi
    have hnone : ∀ m, Matched s.db.row m := by
      intro m i b hb
      have hrow := hb.row
      rw [hi.attempts i] at hrow
      cases hrow
    refine ⟨hnone, fun t ht => absurd ht (initial_not_live hi t), fun w m i t hf => ?_⟩
    rw [hi.workers w] at hf
    cases hf
  · intro s a s' hr hok hma h
    exact matchedAll_step (reachable_sound hr) (reachable_agreed (keepsInvoices_rejoins hr)) hok hma
      (step_cases h)

end ArcaEdi
