import ArcaEdi.Numbering
import ArcaEdi.Cuit
import ArcaEdi.Printed
import ArcaEdi.Recording
import ArcaEdi.Vouchers

/-!
# The module keeps the numbering

An invoice stands as its live attempt has it, and a number is issued where ARCA holds
a voucher. Seen so, a run of the module is a run of the numbering.
-/

namespace ArcaEdi

open Snapshot Runs

variable {W : Type} {P : Platform} {s s' : Sys W} {a : Act W}

/-! ## The view -/

abbrev Standing := Numbering.Standing Coordinates String

/-- How an invoice stands with this live attempt. -/
def Attempt.standing (b : Attempt) : Standing :=
  match b.coordinates with
  | none => .free
  | some c => if b.state = .authorized then .authorized c (b.cae.getD "") else .asked c

/-- The live attempt of an invoice, the first where there are several. -/
def liveAttempt? (v : View) (nextAttempt m : Nat) : Option Attempt :=
  (attemptIds nextAttempt).findSome? fun i =>
    (v (.attempt i)).filter fun b => b.moveId == some m && b.state.isLive

/-- An invoice stands as its live attempt says. -/
def Sys.standing (s : Sys W) (m : Nat) : Standing :=
  (liveAttempt? s.db.row s.nextAttempt m).elim .free Attempt.standing

/-- The invoice that a voucher was asked for. -/
def Sys.requestedBy (s : Sys W) (v : Voucher) : Option Nat :=
  v.origin.bind fun i => (s.db.row (.attempt i)).bind (·.moveId)

/-- What ARCA holds, with the invoice that asked for it. -/
def Sys.issued (s : Sys W) (c : Coordinates) : Option (Numbering.Entry Nat String) :=
  (s.arca.voucher c).map fun v => ⟨s.requestedBy v, v.cae⟩

def Sys.book (s : Sys W) : Numbering.Book Nat Coordinates String := ⟨s.standing, s.issued⟩

/-! ## Discipline -/

variable [DecidableEq W]

/-- At the first checkpoint of a run, no live attempt asks for the same voucher. -/
def asksFresh (s : Sys W) : Act W → Prop
  | .checkpoint w => ∀ p ∈ (s.worker w).job.prepared?, ∀ b ∈ p.1.view (.attempt p.2),
    ∀ j < s.nextAttempt, ∀ c ∈ s.db.row (.attempt j), c.state.isLive = true →
      b.coordinates ≠ c.coordinates
  | _ => True

instance (s : Sys W) (a : Act W) : Decidable (asksFresh s a) :=
  match a with
  | .checkpoint w => inferInstanceAs (Decidable (∀ p ∈ (s.worker w).job.prepared?,
      ∀ b ∈ p.1.view (.attempt p.2), ∀ j < s.nextAttempt, ∀ c ∈ s.db.row (.attempt j),
        c.state.isLive = true → b.coordinates ≠ c.coordinates))
  | .tick | .start _ | .user _ _ | .commit _ | .rollback _ | .request _ _ | .enter _
  | .lastAuthorized _ _ | .resume _ | .sendFails _ _ | .transmit _ | .answer _ _ _
  | .reconcileMove _ _ | .reconcileAttempts _ _ | .search _ _ | .isolate _ | .consult _ _ | .skip _
  | .settle _ | .abort _ | .kill _ | .ticket _ _ | .record _ _ | .refuse _ | .elsewhere _ _ =>
    isTrue trivial

/-- An answer that authorizes has a CAE. -/
def namesCae : Act W → Bool
  | .answer _ reply _ =>
    match feCaeSolicitar reply with
    | .ok result => result.cae.getD "" != ""
    | .error _ => true
  | .consult _ reply =>
    match feCompConsultar reply with
    | .ok (some found) => found.cae.getD "" != ""
    | _ => true
  | _ => true

/-- The four conditions under which the module keeps the book. -/
structure Disciplined (s : Sys W) (a : Act W) : Prop where
  closes : closesFinally s a
  rejoins : rejoinsUnsettled s a = true
  asks : asksFresh s a
  names : namesCae a = true

instance [Fintype W] (s : Sys W) (a : Act W) : Decidable (Disciplined s a) :=
  decidable_of_iff (closesFinally s a ∧ rejoinsUnsettled s a = true ∧ asksFresh s a ∧ namesCae a = true)
    ⟨fun h => ⟨h.1, h.2.1, h.2.2.1, h.2.2.2⟩, fun h => ⟨h.1, h.2, h.3, h.4⟩⟩

/-! ## What every attempt has -/

/-- Its CUIT is a number, and it is authorized under a CAE. -/
structure Entered (b : Attempt) : Prop where
  coordinates : b.coordinates ≠ none
  cae : b.state = .authorized → b.cae.getD "" ≠ ""

omit [DecidableEq W] in
theorem entered_create {w : W} {se : Option DbTx} {t : DbTx} {m key : Nat}
    {c : Intent} {detail : FeCaeDetRequest} (hs : Sound s)
    (hw : s.worker w = ⟨se, .request m key (.asking t c)⟩) :
    Entered (newAttempt s.clock t.view m c detail) := by
  obtain ⟨-, now, hstart⟩ := job_sound hs hw
  obtain ⟨-, -, hseq, -⟩ := authorizeStart_spec hstart
  obtain ⟨n, hn⟩ := issuerCuit_number (moveSequence_cuit hseq)
  exact ⟨by simp [Evidence.coordinates, newAttempt, hn], fun h => by simp [newAttempt] at h⟩

theorem entered_step (hs : Sound s) (hnames : namesCae a = true)
    (hrows : AllRows (fun _ _ => True) (fun _ => Entered) s) (h : Step P s a s') :
    AllRows (fun _ _ => True) (fun _ => Entered) s' := by
  refine allRows_step hs (fun _ _ _ _ => id) (fun _ _ _ => id) ?_ hrows h
  intro t i b ht hrows' hwritten
  cases hwritten with
  | create hw hreq => exact entered_create hs hw
  | outcome hw hf hview hd hev hout hc =>
    refine ⟨by rw [hev]; exact (hrows'.attempts _ _ hview).coordinates, fun hst => ?_⟩
    cases hc with
    | uncertain hst' | aborted hst' | rejected hst' => simp [hst'] at hst
    | authorized _ hcae hr =>
      cases hf with
      | unsent => cases hr
      | answered =>
        rw [hcae]
        simpa [namesCae, hr] using hnames
  | @reconcile w reply t' i m k env cuit found b b' st hw hr =>
    refine ⟨by rw [hr.evidence]; exact (hrows'.attempts _ _ hr.view).coordinates, fun hst => ?_⟩
    cases found with
    | none => simp [hr.notFound rfl] at hst
    | some f =>
      rw [(hr.isFound f rfl).2]
      simpa [namesCae, hr.answer] using hnames

/-- The transaction that a run writes its outcome on. -/
def Job.outcomeTx? : Job → Option (DbTx × Nat)
  | .request _ _ (.sending t i _) | .request _ _ (.awaiting t i _) | .request _ _ (.answered t i _) =>
    some (t, i)
  | _ => none

/-- A run takes its second snapshot with its own attempt open. -/
def Rejoined (s : Sys W) : Prop :=
  ∀ w t i, (s.worker w).job.outcomeTx? = some (t, i) →
    ∃ b : Attempt, t.snap.row (.attempt i) = some b ∧ b.state.isOpen = true

omit [DecidableEq W] in
theorem Finishes.outcomeTx {w : W} {t : DbTx} {m key i : Nat} {r : Request} {stage : Stage}
    {result : Except Exn CaeResult} (h : Finishes s w t i r a stage result) :
    (Job.request m key stage).outcomeTx? = some (t, i) := by
  cases h <;> rfl

omit [DecidableEq W] in
theorem resuming_open {w : W} {m i : Nat} (hs : Sound s) (hd : ClosedDead s)
    (hok : rejoinsUnsettled s (.resume w) = true)
    (hr : (s.worker w).job.resuming? = some (m, i)) :
    ∃ b : Attempt, s.db.row (.attempt i) = some b ∧ b.state.isOpen = true := by
  obtain ⟨b, hb⟩ := resuming_live hs hd hr
  refine ⟨b, hb.row, ?_⟩
  simp only [rejoinsUnsettled, hr, hb.row, Option.all_some, Option.any_some, Bool.and_eq_true,
    Bool.not_eq_true', beq_eq_false_iff_ne] at hok
  simpa [AttemptState.isLive, hok.2] using hb.live

theorem rejoined_step (hs : Sound s) (hd : ClosedDead s) (hok : rejoinsUnsettled s a = true)
    (hrej : Rejoined s) (h : Step P s a s') : Rejoined s' := by
  intro w t i ht
  have hold := hrej w
  have hjob := hs.jobs w
  have hresume : ∀ m, a = .resume w → (s.worker w).job.resuming? = some (m, i) →
      ∃ b : Attempt, s.db.row (.attempt i) = some b ∧ b.state.isOpen = true := by
    rintro m rfl hr
    exact resuming_open hs hd hok hr
  rcases job_step h w with ⟨-, hsame⟩ | ⟨-, hstep⟩
  · exact hold t i (hsame ▸ ht)
  clear h
  generalize (s'.worker w).job = j' at ht hstep
  generalize (s.worker w).job = j at hstep hold hjob hresume
  cases hstep with
  | resume =>
    cases ht
    exact hresume _ rfl rfl
  | transmit => exact hold t i ht
  | outcome hf h =>
    cases ht
    obtain ⟨-, b, hb, -⟩ := hf.made hjob
    obtain ⟨c, st, rfl, -⟩ := outcome_spec hb h
    rw [pairWrite_snap]
    exact hold _ _ hf.outcomeTx
  | _ => cases ht

/-! ## Runs -/

/-- The invariants that the book rests on. -/
structure NumberingKept (s : Sys W) : Prop where
  agreed : Agreed s
  dead : ClosedDead s
  entered : AllRows (fun _ _ => True) (fun _ => Entered) s
  rejoined : Rejoined s

omit [DecidableEq W] in
theorem initial_numberingKept (hi : Initial s) : NumberingKept s := by
  refine ⟨initial_agreed hi, initial_allRows hi fun _ => trivial, initial_allRows hi fun _ => trivial, ?_⟩
  intro w t i ht
  rw [hi.workers w] at ht
  cases ht

theorem reachable_numberingKept (h : Reachable (system P) Disciplined s) : NumberingKept s := by
  refine reachable_inv (P := NumberingKept) (fun _ => initial_numberingKept) ?_ h
  intro s a s' hr hok hk h
  have hs := reachable_sound hr
  have hstep := step_cases h
  exact ⟨agreed_step hs (Bool.and_eq_true_iff.mp hok.rejoins).1 hk.agreed hstep,
    closedDead_step hs (reachable_scoped hr) (reachable_oneOwner hr) (reachable_logged hr) hok.closes
      hk.dead hstep,
    entered_step hs hok.names hk.entered hstep, rejoined_step hs hk.dead hok.rejoins hk.rejoined hstep⟩

/-! ## How an invoice stands -/

omit [DecidableEq W] in
theorem standing_live {m i : Nat} {b : Attempt} (hs : Sound s) (hag : Agree s.db.row m)
    (hb : LiveAttempt s.db.row m i b) : s.standing m = b.standing := by
  have hsome : (liveAttempt? s.db.row s.nextAttempt m).isSome = true := by
    rw [liveAttempt?, List.findSome?_isSome_iff]
    refine ⟨i, List.mem_range.mpr (hs.known i b hb.row).1, ?_⟩
    simp [hb.row, hb.move, hb.live]
  obtain ⟨c, hc⟩ := Option.isSome_iff_exists.mp hsome
  obtain ⟨j, -, hj⟩ := List.exists_of_findSome?_eq_some hc
  obtain ⟨hrow, hlive⟩ := Option.filter_eq_some_iff.mp hj
  rw [Bool.and_eq_true, beq_iff_eq] at hlive
  obtain rfl := hag.unique i j b c hb ⟨hrow, hlive.1, hlive.2⟩
  obtain rfl : b = c := Option.some.inj (hb.row.symm.trans hrow)
  rw [Sys.standing, hc]
  rfl

omit [DecidableEq W] in
theorem standing_free {m : Nat} (h : ∀ i b, ¬ LiveAttempt s.db.row m i b) : s.standing m = .free := by
  have hnone : liveAttempt? s.db.row s.nextAttempt m = none := by
    rw [liveAttempt?, List.findSome?_eq_none_iff]
    intro i _
    rw [Option.filter_eq_none_iff]
    intro b hb hlive
    rw [Bool.and_eq_true, beq_iff_eq] at hlive
    exact h i b ⟨hb, hlive.1, hlive.2⟩
  rw [Sys.standing, hnone]
  rfl

omit [DecidableEq W] in
theorem standing_some {m : Nat} {c : Coordinates} (hs : Sound s) (hag : Agree s.db.row m)
    (h : (s.standing m).number? = some c) :
    ∃ i b, LiveAttempt s.db.row m i b ∧ b.coordinates = some c := by
  by_cases hex : ∃ i b, LiveAttempt s.db.row m i b
  · obtain ⟨i, b, hb⟩ := hex
    rw [standing_live hs hag hb] at h
    refine ⟨i, b, hb, ?_⟩
    unfold Attempt.standing at h
    cases hc : b.coordinates with
    | none => simp [hc, Numbering.Standing.number?] at h
    | some d =>
      rw [hc] at h
      simp only at h
      split at h <;> exact h
  · push Not at hex
    rw [standing_free hex] at h
    cases h

omit [DecidableEq W] in
theorem standing_open {m i : Nat} {b : Attempt} {c : Coordinates} (hs : Sound s)
    (hag : Agree s.db.row m) (hb : OpenAttempt s.db.row m i b) (hc : b.coordinates = some c) :
    s.standing m = .asked c := by
  have hst : b.state ≠ .authorized := by
    intro hst
    have hopen := hb.isOpen
    rw [hst] at hopen
    cases hopen
  rw [standing_live hs hag hb.live, Attempt.standing, hc]
  simp [hst]

/-! ## Steps -/

omit [DecidableEq W] in
theorem isClosed_of_not_live {b : Attempt} (h : b.state.isLive ≠ true) : b.isClosed = true := by
  cases hst : b.state <;> simp [hst, AttemptState.isLive, AttemptState.isOpen, Attempt.isClosed] at h ⊢

/-- The step takes no attempt in. -/
def TakesNone (s s' : Sys W) (a : Act W) : Prop := s'.db = s.db ∨ ∀ w, a ≠ .checkpoint w

theorem open_changes {i : Nat} {b' : Attempt} (hs : Sound s) (hsc : Scoped s) (hrej : Rejoined s)
    (hnone : TakesNone s s' a) (h : Step P s a s')
    (hb' : s'.db.row (.attempt i) = some b') :
    ∃ b : Attempt, s.db.row (.attempt i) = some b ∧ b'.toEvidence = b.toEvidence ∧
      (b' = b ∨ b.state.isOpen = true) := by
  have hevidence : ∀ b : Attempt, s.db.row (.attempt i) = some b → b'.toEvidence = b.toEvidence := by
    intro b hb
    obtain ⟨c, hc, hev, -⟩ := (sound_onward hs h).later i b hb
    rw [hb'] at hc
    cases hc
    exact hev
  have hsame : s'.db.row (.attempt i) = s.db.row (.attempt i) → _ := fun hrow =>
    (⟨b', hrow.symm.trans hb', rfl, .inl rfl⟩ : ∃ b : Attempt, s.db.row (.attempt i) = some b ∧
      b'.toEvidence = b.toEvidence ∧ (b' = b ∨ b.state.isOpen = true))
  rcases step_commits h with hdb | ⟨t, ht, hc⟩
  · exact hsame (by rw [hdb])
  rcases commit_row (ht.isolated_tx hs) hc (.attempt i) with hrow | ⟨hsnap, -⟩
  · exact hsame hrow
  cases attempt_changes hs hsc h i with
  | same hrow => exact hsame hrow
  | session hw hold hnew hsnap' hview hopen | isolated hw hold hnew hsnap' hview hopen =>
    exact ⟨_, hold, hevidence _ hold, .inr hopen⟩
  | @own w se m key u r hw hnew =>
    obtain rfl : u = t := by
      cases ht with
      | settle hw' =>
        rw [hw] at hw'
        cases hw'
        rfl
      | isolated hw' =>
        rw [hw] at hw'
        cases hw'
    obtain ⟨b, hb, hopen⟩ := hrej w u i (by rw [hw]; rfl)
    exact ⟨b, hsnap.trans hb, hevidence b (hsnap.trans hb), .inr hopen⟩
  | created hw hnew =>
    rcases hnone with hdb | hne
    · exact hsame (by rw [hdb])
    · exact absurd rfl (hne _)

theorem live_back {m i : Nat} {b' : Attempt} (hs : Sound s) (hsc : Scoped s) (hrej : Rejoined s)
    (hnone : TakesNone s s' a) (h : Step P s a s') (hb' : LiveAttempt s'.db.row m i b') : ∃ b, LiveAttempt s.db.row m i b := by
  obtain ⟨b, hb, hev, hchange⟩ := open_changes hs hsc hrej hnone h hb'.row
  refine ⟨b, hb, (congrArg Evidence.moveId hev).symm.trans hb'.move, ?_⟩
  rcases hchange with rfl | hopen
  · exact hb'.live
  · exact isLive_of_isOpen _ hopen

theorem requestedBy_step {c : Coordinates} {v : Voucher} (hs : Sound s) (hl : Logged s)
    (h : Step P s a s') (hv : s.arca.voucher c = some v) : s'.requestedBy v = s.requestedBy v := by
  unfold Sys.requestedBy
  cases horigin : v.origin with
  | none => rfl
  | some i =>
    obtain ⟨t, ht, rfl, -⟩ := hl.origin c v i hv horigin
    obtain ⟨b, hb, -⟩ := hl.asked t ht
    obtain ⟨b', hb', hev, -⟩ := (sound_onward hs h).later _ b hb
    simp only [Option.bind_some, hb, hb']
    exact congrArg Evidence.moveId hev

theorem issued_same (hs : Sound s) (hl : Logged s) (h : Step P s a s')
    (hv : s'.arca.voucher = s.arca.voucher) : s'.issued = s.issued := by
  funext c
  unfold Sys.issued
  rw [hv]
  cases hc : s.arca.voucher c with
  | none => rfl
  | some v => rw [Option.map_some, Option.map_some, requestedBy_step hs hl h hc]

omit [DecidableEq W] in
theorem issued_some {c : Coordinates} {e : Numbering.Entry Nat String} (h : s.issued c = some e) :
    ∃ v, s.arca.voucher c = some v ∧ e = ⟨s.requestedBy v, v.cae⟩ := by
  obtain ⟨v, hv, rfl⟩ := Option.map_eq_some_iff.mp h
  exact ⟨v, hv, rfl⟩

omit [DecidableEq W] in
theorem requestedBy_some {v : Voucher} {m : Nat} (h : s.requestedBy v = some m) :
    ∃ i b, v.origin = some i ∧ s.db.row (.attempt i) = some b ∧ b.moveId = some m := by
  obtain ⟨i, hi, hrow⟩ := Option.bind_eq_some_iff.mp h
  obtain ⟨b, hb, hm⟩ := Option.bind_eq_some_iff.mp hrow
  exact ⟨i, b, hi, hb, hm⟩

/-! ## Settling -/

section Settling

variable (hr : Reachable (system P) Disciplined s) (hok : Disciplined s a)
  (h : (system P).step s a = some s') (hnone : TakesNone s s' a)
  (hv : s'.arca.voucher = s.arca.voucher)

include hr hok h hnone hv

omit hok hv in
theorem standing_gone {m : Nat} (hgone : ∀ i b, ¬ LiveAttempt s.db.row m i b) :
    s'.standing m = .free := by
  refine standing_free fun i b' hb' => ?_
  obtain ⟨b, hb⟩ := live_back (reachable_sound hr) (reachable_scoped hr)
    (reachable_numberingKept hr).rejoined hnone (step_cases h) hb'
  exact hgone i b hb

omit hnone in
theorem withdraw_allowed {m : Nat} {c : Coordinates} (hgone : ∀ i b, ¬ LiveAttempt s'.db.row m i b) :
    ∀ e, s.issued c = some e → e.requestedBy ≠ some m := by
  intro e he hm
  obtain ⟨v, hvoucher, rfl⟩ := issued_some he
  obtain ⟨i, b, hi, hb, hbm⟩ := requestedBy_some hm
  obtain ⟨b', hb', hev, -⟩ := (sound_onward (reachable_sound hr) (step_cases h)).later i b hb
  have hr' := hr.step hok h
  have hclosed : b'.isClosed = true := by
    refine isClosed_of_not_live fun hlive => hgone i b' ⟨hb', ?_, hlive⟩
    exact (congrArg Evidence.moveId hev).trans hbm
  have hdead := (reachable_numberingKept hr').dead.db.attempts i b' hb' hclosed
  exact dead_no_voucher (reachable_logged hr') hdead (hv ▸ hvoucher) hi

theorem settles_live {m i : Nat} {b : Attempt} (hb : LiveAttempt s.db.row m i b) :
    Numbering.Settles s.book m (s'.standing m) := by
  have hs := reachable_sound hr
  have hk := reachable_numberingKept hr
  have hr' := hr.step hok h
  have hs' := reachable_sound hr'
  have hk' := reachable_numberingKept hr'
  obtain ⟨b', hb', -⟩ := (sound_onward hs (step_cases h)).later i b hb.row
  obtain ⟨b₁, hb₁, hev, hchange⟩ := open_changes hs (reachable_scoped hr) hk.rejoined
    hnone (step_cases h) hb'
  obtain rfl : b = b₁ := Option.some.inj (hb.row.symm.trans hb₁)
  have hmove' : b'.moveId = some m := (congrArg Evidence.moveId hev).trans hb.move
  have hstanding := standing_live hs (hk.agreed.db m) hb
  rcases hchange with rfl | hopen
  · have hsame : s'.standing m = s.book.standing m :=
      (standing_live hs' (hk'.agreed.db m) ⟨hb', hmove', hb.live⟩).trans hstanding.symm
    rw [hsame]
    exact .same
  obtain ⟨c, hc⟩ := Option.ne_none_iff_exists'.mp (hk.entered.db.attempts i b hb.row).coordinates
  have hc' : b'.coordinates = some c := by rw [hev, hc]
  have hasked : s.book.standing m = .asked c := standing_open hs (hk.agreed.db m) ⟨hb.row, hb.move, hopen⟩ hc
  by_cases hlive : b'.state.isLive = true
  · rw [standing_live hs' (hk'.agreed.db m) ⟨hb', hmove', hlive⟩]
    by_cases hauth : b'.state = .authorized
    · have hcae := (hk'.entered.db.attempts i b' hb').cae hauth
      obtain ⟨cae, hsome⟩ : ∃ cae, b'.cae = some cae := by
        cases hcase : b'.cae with
        | none => simp [hcase] at hcae
        | some cae => exact ⟨cae, rfl⟩
      rw [hsome, Option.getD_some] at hcae
      obtain ⟨d, v, hd, hvoucher, rfl⟩ := (reachable_trueCae hr').db.attempts i b' hb' hauth cae hsome hcae
      obtain rfl : c = d := Option.some.inj (hc'.symm.trans hd)
      have hissued : s.book.issued c = some ⟨s.requestedBy v, v.cae⟩ := by
        rw [hv] at hvoucher
        simp [Sys.book, Sys.issued, hvoucher]
      have hx : b'.standing = .authorized c v.cae := by simp [Attempt.standing, hc', hauth, hsome]
      rw [hx]
      exact .authorize hasked hissued
    · have hx : b'.standing = s.book.standing m := by
        rw [hasked]
        simp [Attempt.standing, hc', hauth]
      rw [hx]
      exact .same
  · have hgone : ∀ j d, ¬ LiveAttempt s'.db.row m j d := by
      intro j d hd
      obtain ⟨d₀, hd₀⟩ := live_back hs (reachable_scoped hr) hk.rejoined hnone (step_cases h) hd
      obtain rfl := (hk.agreed.db m).unique i j b d₀ hb hd₀
      obtain rfl : b' = d := Option.some.inj (hb'.symm.trans hd.row)
      exact hlive hd.live
    rw [standing_free hgone]
    exact .withdraw hasked (withdraw_allowed hr hok h hv hgone)

theorem settles_book : Numbering.spec.Follows s.book s'.book := by
  have hs := reachable_sound hr
  refine Numbering.settles_all
    ((attemptIds s.nextAttempt).filterMap fun i => (s.db.row (.attempt i)).bind (·.moveId))
    (issued_same hs (reachable_logged hr) (step_cases h) hv) (fun m hm => ?_) (fun m => ?_)
  · by_contra hmem
    refine hm ?_
    have hgone : ∀ i b, ¬ LiveAttempt s.db.row m i b := by
      intro i b hb
      refine hmem (List.mem_filterMap.mpr ⟨i, List.mem_range.mpr (hs.known i b hb.row).1, ?_⟩)
      rw [hb.row]
      exact hb.move
    exact (standing_gone hr h hnone hgone).trans (standing_free hgone).symm
  · by_cases hex : ∃ i b, LiveAttempt s.db.row m i b
    · obtain ⟨i, b, hb⟩ := hex
      exact settles_live hr hok h hnone hv hb
    · push Not at hex
      have hsame : s'.book.standing m = s.book.standing m :=
        (standing_gone hr h hnone hex).trans (standing_free hex).symm
      rw [hsame]
      exact .same

end Settling

/-! ## Asking -/

theorem checkpoint_changes {w : W} {se : Option DbTx} {m key i j : Nat} {t : DbTx} {r : Request}
    (hs : Sound s) (hsc : Scoped s) (hw : s.worker w = ⟨se, .request m key (.prepared t i r)⟩)
    (h : Step P s (.checkpoint w) s') (hj : j ≠ i) :
    s'.db.row (.attempt j) = s.db.row (.attempt j) := by
  cases attempt_changes hs hsc h j with
  | same hsame => exact hsame
  | created hw' =>
    rw [hw] at hw'
    cases hw'
    exact absurd rfl hj

omit [DecidableEq W] in
theorem standing_rows {m : Nat} (hs : Sound s) (hs' : Sound s') (hag : Agree s.db.row m)
    (hag' : Agree s'.db.row m)
    (hsame : ∀ i b, LiveAttempt s'.db.row m i b ↔ LiveAttempt s.db.row m i b) :
    s'.standing m = s.standing m := by
  by_cases hex : ∃ i b, LiveAttempt s.db.row m i b
  · obtain ⟨i, b, hb⟩ := hex
    rw [standing_live hs hag hb, standing_live hs' hag' ((hsame i b).mpr hb)]
  · push Not at hex
    rw [standing_free hex, standing_free fun i b hb => hex i b ((hsame i b).mp hb)]

theorem asks_book {w : W} {se : Option DbTx} {m key i : Nat} {t : DbTx} {r : Request}
    (hr : Reachable (system P) Disciplined s) (hok : Disciplined s (.checkpoint w))
    (h : (system P).step s (.checkpoint w) = some s')
    (hw : s.worker w = ⟨se, .request m key (.prepared t i r)⟩) (hc : s.commitTx t = some s'.db)
    (hv : s'.arca.voucher = s.arca.voucher) : Numbering.spec.Follows s.book s'.book := by
  have hstep : Step P s (.checkpoint w) s' := step_cases h
  have hs := reachable_sound hr
  have hsc := reachable_scoped hr
  have hk := reachable_numberingKept hr
  have hr' := hr.step hok h
  have hs' := reachable_sound hr'
  have hk' := reachable_numberingKept hr'
  have hprepared : (s.worker w).job.prepared? = some (t, i) := by
    rw [hw]
    rfl
  have hfresh : s.db.row (.attempt i) = none := reachable_fresh hr w t i hprepared
  obtain ⟨b, hb, hsent⟩ := reachable_preparedSent hr w t i hprepared
  obtain ⟨ht, b₁, hb₁, hdesc⟩ := prepared_attempt hs (congrArg Worker.job hw)
  obtain rfl : b = b₁ := Option.some.inj (hb.symm.trans hb₁)
  have hrow : s'.db.row (.attempt i) = some b := by
    rcases commit_row ht hc (.attempt i) with hrow | ⟨-, hview⟩
    · obtain ⟨c, hc', -⟩ := commit_attempt ht hc hb
      rw [hrow, hfresh] at hc'
      cases hc'
    · rw [hview, hb]
  have hlive' : LiveAttempt s'.db.row m i b := ⟨hrow, hdesc.move, by rw [hsent]; rfl⟩
  have hothers : ∀ j, j ≠ i → s'.db.row (.attempt j) = s.db.row (.attempt j) :=
    fun j hj => checkpoint_changes hs hsc hw hstep hj
  obtain ⟨c, hcoord⟩ := Option.ne_none_iff_exists'.mp
    ((hk.entered.views t (live_work hw rfl)).attempts i b hb).coordinates
  have hfree : s.standing m = .free := by
    refine standing_free fun j d hd => ?_
    have hji : j ≠ i := by
      rintro rfl
      exact absurd (hfresh.symm.trans hd.row) nofun
    exact hji ((hk'.agreed.db m).unique j i d b
      ⟨(hothers j hji).trans hd.row, hd.move, hd.live⟩ hlive')
  have hunasked : ∀ n, (s.standing n).number? ≠ some c := by
    intro n hn
    obtain ⟨j, d, hd, hdc⟩ := standing_some hs (hk.agreed.db n) hn
    exact hok.asks (t, i) hprepared b hb j (hs.known j d hd.row).1 d hd.row hd.live
      (hcoord.trans hdc.symm)
  have hasked : s'.standing m = .asked c := by
    rw [standing_live hs' (hk'.agreed.db m) hlive', Attempt.standing, hcoord]
    simp [hsent]
  have hkept : ∀ n, n ≠ m → s'.standing n = s.standing n := by
    intro n hn
    refine standing_rows hs hs' (hk.agreed.db n) (hk'.agreed.db n) fun j d => ?_
    by_cases hji : j = i
    · subst hji
      constructor
      · intro hd
        obtain rfl : b = d := Option.some.inj (hrow.symm.trans hd.row)
        exact absurd (Option.some.inj (hd.move.symm.trans hdesc.move)) hn
      · intro hd
        exact absurd (hfresh.symm.trans hd.row) nofun
    · constructor <;> intro hd <;> refine ⟨?_, hd.move, hd.live⟩
      · rw [← hothers j hji, hd.row]
      · rw [hothers j hji, hd.row]
  have hbook : s'.book = { s.book with standing := Function.update s.book.standing m (.asked c) } := by
    refine congrArg₂ Numbering.Book.mk (funext fun n => ?_) (issued_same hs
      (reachable_logged hr) hstep hv)
    by_cases hn : n = m
    · subst hn
      rw [Function.update_self, hasked]
    · rw [Function.update_of_ne hn, hkept n hn]
      rfl
  rw [hbook]
  exact .single (.ask hfree hunasked)

/-! ## Issuing -/

omit [DecidableEq W] in
theorem issued_update {arca arca' : Arca} {c : Coordinates} {v : Voucher} (hs : s'.db = s.db)
    (hissue : arca.issue c v = some arca') (harca : s.arca.voucher = arca.voucher)
    (harca' : s'.arca = arca') :
    s'.issued = Function.update s.issued c (some ⟨s.requestedBy v, v.cae⟩) := by
  have hrequested : s'.requestedBy = s.requestedBy := by
    funext v
    rw [Sys.requestedBy, hs, Sys.requestedBy]
  funext d
  rw [Sys.issued, harca', (issue_spec hissue).2.2, hrequested]
  by_cases hd : d = c
  · subst hd
    rw [Function.update_self, Function.update_self]
    rfl
  · rw [Function.update_of_ne hd, Function.update_of_ne hd, Sys.issued, harca]

theorem record_open {n : Nat} {u : Transmission} (hr : Reachable (system P) Disciplined s)
    (hu : s.arca.sent[n]? = some u) (hal : Arca.alive s.clock u)
    (hnone : s.arca.voucher u.coordinates = none) :
    ∃ m b, OpenAttempt s.db.row m u.attempt b ∧ b.coordinates = some u.coordinates := by
  have hk := reachable_numberingKept hr
  have hmem := List.mem_of_getElem? hu
  obtain ⟨b, hb, hask⟩ := (reachable_logged hr).asked u hmem
  obtain ⟨m, hm⟩ := Option.ne_none_iff_exists'.mp ((reachable_sound hr).known _ b hb).2
  refine ⟨m, b, ⟨hb, hm, ?_⟩, asked_coordinates hask⟩
  cases hst : b.state with
  | sent | uncertain => rfl
  | rejected | aborted =>
    have hdead := hk.dead.db.attempts _ b hb (by simp [Attempt.isClosed, hst])
    exact absurd hal (hdead.landed.fates u hmem rfl)
  | authorized =>
    have hcae := (hk.entered.db.attempts _ b hb).cae hst
    cases hcase : b.cae with
    | none => simp [hcase] at hcae
    | some cae =>
      rw [hcase, Option.getD_some] at hcae
      obtain ⟨c, v, hc, hv, -⟩ := (reachable_trueCae hr).db.attempts _ b hb hst cae hcase hcae
      rw [asked_coordinates hask] at hc
      cases hc
      rw [hnone] at hv
      cases hv

theorem records_book {n : Nat} {cae : String} {arca : Arca} (hr : Reachable (system P) Disciplined s)
    (h : s.arca.record s.clock n cae = some arca) :
    Numbering.spec.Follows s.book ({ s with arca := arca } : Sys W).book := by
  obtain ⟨u, hu, hal, hissue⟩ := record_spec h
  have hnone : s.arca.voucher u.coordinates = none := (issue_spec hissue).1
  obtain ⟨m, b, hb, hc⟩ := record_open hr hu hal hnone
  have hasked := standing_open (reachable_sound hr) ((reachable_numberingKept hr).agreed.db m) hb hc
  have hrequested : s.requestedBy ⟨some u.attempt, cae⟩ = some m := by
    simp [Sys.requestedBy, hb.row, hb.move]
  have hbook : ({ s with arca := arca } : Sys W).book = { s.book with
      issued := Function.update s.book.issued u.coordinates (some ⟨some m, cae⟩) } := by
    refine congrArg₂ Numbering.Book.mk rfl ?_
    have hissued : ({ s with arca := arca } : Sys W).issued =
      Function.update s.issued _ _ := issued_update rfl hissue rfl rfl
    rw [hissued, hrequested]
    rfl
  rw [hbook]
  exact .single (.issue hasked (by simp [Sys.book, Sys.issued, hnone]))

omit [DecidableEq W] in
theorem elsewhere_book {c : Coordinates} {cae : String} {arca : Arca}
    (h : s.arca.issue c ⟨none, cae⟩ = some arca) :
    Numbering.spec.Follows s.book ({ s with arca := arca } : Sys W).book := by
  have hbook : ({ s with arca := arca } : Sys W).book = { s.book with
      issued := Function.update s.book.issued c (some ⟨none, cae⟩) } := by
    refine congrArg₂ Numbering.Book.mk rfl ?_
    have hissued : ({ s with arca := arca } : Sys W).issued =
      Function.update s.issued _ _ := issued_update rfl h rfl rfl
    rw [hissued]
    rfl
  rw [hbook]
  exact .single (.elsewhere (by simp [Sys.book, Sys.issued, (issue_spec h).1]))

/-! ## Refinement -/

omit [DecidableEq W] in
theorem initial_book (hi : Initial s) : Numbering.Init s.book := by
  refine ⟨fun m => standing_free fun i b hb => ?_, fun c e he => ?_⟩
  · have hrow := hb.row
    rw [hi.attempts i] at hrow
    cases hrow
  · obtain ⟨v, hv, rfl⟩ := issued_some he
    simp [Sys.requestedBy, hi.vouchers c v hv]

theorem book_step (hr : Reachable (system P) Disciplined s) (hok : Disciplined s a)
    (h : (system P).step s a = some s') : Numbering.spec.Follows s.book s'.book := by
  cases step_cases h with
  | record hrecord => exact records_book hr hrecord
  | elsewhere hissue => exact elsewhere_book hissue
  | checkpoint hw hc => exact asks_book hr hok h hw hc rfl
  | refuse hrefuse =>
    obtain ⟨u, -, -, rfl⟩ := refuse_spec hrefuse
    exact settles_book hr hok h (.inl rfl) rfl
  | commit | settle | settleIsolated | ticket => exact settles_book hr hok h (.inr nofun) rfl
  | _ => exact settles_book hr hok h (.inl rfl) rfl

theorem book_refines : Refines (system P) (Disciplined (W := W)) Numbering.spec Sys.book :=
  ⟨fun _ => initial_book, fun _ _ _ => book_step⟩

namespace Office

/-- ARCA records the request, and the answer is lost. -/
def requestLost (w : Fin 3) : List (Act (Fin 3)) :=
  posted 0 0 ++ recorded w 0 0 ++
    [.resume w, .transmit w, .record 0 "74000000000001", .answer w timeout 60000, .settle w, .rollback w]

def cronFinds (w : Fin 3) : List (Act (Fin 3)) := cron w (voucherFound "74000000000001")

end Office

/-- A run under the discipline is, seen so, a run of the numbering. -/
theorem module_follows_numbering {t : Sys W} (hs : Reachable (system P) Disciplined s)
    (ht : Leads (system P) Disciplined s t) :
    Numbering.spec.Allows s.book ∧ Numbering.spec.Follows s.book t.book :=
  ⟨book_refines.allows hs, book_refines.leads hs ht⟩

theorem module_follows_numbering_found :
    ∃ s t : Sys (Fin 3), s.standing 0 = .asked (Office.numbered 1) ∧
      t.standing 0 = .authorized (Office.numbered 1) "74000000000001" ∧
      Numbering.spec.Allows s.book ∧ Numbering.spec.Follows s.book t.book := by
  obtain ⟨s, t, hs, ht, hst⟩ := Office.reaches_then Disciplined (Office.requestLost 0) (Office.cronFinds 1)
    (fun s t => decide (s.standing 0 = .asked (Office.numbered 1)) &&
      decide (t.standing 0 = .authorized (Office.numbered 1) "74000000000001")) (by decide +kernel)
  rw [Bool.and_eq_true, decide_eq_true_iff, decide_eq_true_iff] at hst
  exact ⟨s, t, hst.1, hst.2, module_follows_numbering hs ht⟩

/-! ## What the invoice says -/

/-- The ARCA fields of the invoice say how it stands. -/
def ShowsStanding (move : Move) : Standing → Prop
  | .free => expected move.arcaState = none
  | .asked _ => move.arcaState = .processing ∨ move.arcaState = .uncertain
  | .authorized _ cae => move.arcaState = .authorized ∧ move.cae = some cae

omit [DecidableEq W] in
theorem agree_shows {m : Nat} (hs : Sound s) (hk : NumberingKept s) :
    ShowsStanding (s.db.row (.move m)) (s.standing m) := by
  have hag := hk.agreed.db m
  by_cases hex : ∃ i b, LiveAttempt s.db.row m i b
  · obtain ⟨i, b, hb⟩ := hex
    obtain ⟨c, hc⟩ := Option.ne_none_iff_exists'.mp (hk.entered.db.attempts i b hb.row).coordinates
    have hst := hag.state i b hb
    rw [standing_live hs hag hb, Attempt.standing, hc]
    by_cases hauth : b.state = .authorized
    · have hcae := (hk.entered.db.attempts i b hb.row).cae hauth
      rw [hauth] at hst
      simp only [hauth, ↓reduceIte, ShowsStanding]
      refine ⟨?_, (hag.cae i b hb hauth).1.trans ?_⟩
      · cases harca : (s.db.row (.move m) : Move).arcaState <;> simp [harca, expected] at hst ⊢
      · cases hcase : b.cae with
        | none => simp [hcase] at hcae
        | some cae => rfl
    · simp only [hauth, ↓reduceIte, ShowsStanding]
      cases harca : (s.db.row (.move m) : Move).arcaState with
      | processing => exact .inl rfl
      | uncertain => exact .inr rfl
      | authorized =>
        rw [harca] at hst
        exact absurd (Option.some.inj hst).symm hauth
      | notRequired | pending | rejected => simp [harca, expected] at hst
  · push Not at hex
    rw [standing_free hex]
    by_contra hne
    obtain ⟨i, b, hb⟩ := hag.found hne
    exact hex i b hb

/-- The numbering is safe in every state, and the fields of each invoice say how it stands. -/
theorem invoices_show_numbering (hr : Reachable (system P) Disciplined s) :
    Numbering.Safe s.book ∧ ∀ m, ShowsStanding (s.db.row (.move m)) (s.standing m) :=
  ⟨book_refines.inv (fun _ => Numbering.safe_init) (fun _ _ => Numbering.safe_next) hr,
    fun _ => agree_shows (reachable_sound hr) (reachable_numberingKept hr)⟩

theorem invoices_show_numbering_lost :
    ∃ s : Sys (Fin 3), s.standing 0 = .asked (Office.numbered 1) ∧ Numbering.Safe s.book ∧
      ShowsStanding (s.db.row (.move 0)) (.asked (Office.numbered 1)) := by
  obtain ⟨s, hs, hst⟩ := Office.reaches Disciplined (Office.requestLost 0)
    (fun s => decide (s.standing 0 = .asked (Office.numbered 1))) (by decide +kernel)
  have hstanding := of_decide_eq_true hst
  obtain ⟨hsafe, hshows⟩ := invoices_show_numbering hs
  exact ⟨s, hstanding, hsafe, hstanding ▸ hshows 0⟩

/-- The invoice stays with the voucher, and takes no other number. -/
inductive StaysWith (move : Move) (x : Standing) (c : Coordinates) (cae : String) : Prop
  | asked (hx : x = .asked c) (hm : move.arcaState = .processing ∨ move.arcaState = .uncertain)
  | authorized (hx : x = .authorized c cae) (hm : move.arcaState = .authorized)
      (hcae : move.cae = some cae)

/-- Once ARCA holds a voucher that was asked for an invoice, the invoice is never free again:
it waits at that number, or is authorized under that CAE. -/
theorem voucher_keeps_invoice {t : Sys W} {m : Nat} {c : Coordinates} {v : Voucher}
    (hs : Reachable (system P) Disciplined s) (ht : Leads (system P) Disciplined s t)
    (hv : s.arca.voucher c = some v) (hm : s.requestedBy v = some m) :
    StaysWith (t.db.row (.move m)) (t.standing m) c v.cae := by
  have hrt := leads_reachable hs ht
  have hissued : s.book.issued c = some ⟨some m, v.cae⟩ := by simp [Sys.book, Sys.issued, hv, hm]
  have hkept : t.book.issued c = some ⟨some m, v.cae⟩ :=
    Spec.follows_keep (P := fun B => B.issued c = some ⟨some m, v.cae⟩)
      (fun _ _ => Numbering.issued_next) (book_refines.leads hs ht) hissued
  have hsafe : Numbering.Safe t.book :=
    book_refines.inv (fun _ => Numbering.safe_init) (fun _ _ => Numbering.safe_next) hrt
  have hnumber := hsafe.own c _ m hkept rfl
  have hshows := agree_shows (m := m) (reachable_sound hrt) (reachable_numberingKept hrt)
  cases hx : t.standing m with
  | free =>
    rw [show t.book.standing m = t.standing m from rfl, hx] at hnumber
    cases hnumber
  | asked d =>
    rw [show t.book.standing m = t.standing m from rfl, hx] at hnumber
    cases hnumber
    rw [hx] at hshows
    exact .asked rfl hshows
  | authorized d cae =>
    obtain ⟨e, he, rfl⟩ := hsafe.cae m d cae hx
    rw [show t.book.standing m = t.standing m from rfl, hx] at hnumber
    cases hnumber
    rw [hkept] at he
    cases he
    rw [hx] at hshows
    exact .authorized rfl hshows.1 hshows.2

theorem voucher_keeps_invoice_found :
    ∃ (s t : Sys (Fin 3)) (v : Voucher), s.arca.voucher (Office.numbered 1) = some v ∧
      Office.arcaState s 0 = .uncertain ∧ Office.arcaState t 0 = .authorized ∧
      StaysWith (t.db.row (.move 0)) (t.standing 0) (Office.numbered 1) v.cae := by
  obtain ⟨s, t, hs, ht, hst⟩ := Office.reaches_then Disciplined (Office.requestLost 0) (Office.cronFinds 1)
    (fun s t => ((s.arca.voucher (Office.numbered 1)).any fun v => s.requestedBy v == some 0) &&
      (Office.arcaState s 0 == .uncertain && Office.arcaState t 0 == .authorized)) (by decide +kernel)
  simp only [Bool.and_eq_true, beq_iff_eq] at hst
  obtain ⟨v, hv, hm⟩ := (Option.any_eq_true _ _).mp hst.1
  exact ⟨s, t, v, hv, hst.2.1, hst.2.2, voucher_keeps_invoice hs ht hv (beq_iff_eq.mp hm)⟩

end ArcaEdi
