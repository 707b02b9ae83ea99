import ArcaEdi.Exclusion

/-!
# Reconciliation leaves running requests alone

The cron does, by the lock, by the age of the attempt and by its state. A button
takes none of the three precautions.
-/

namespace ArcaEdi

open Snapshot Runs

variable {W : Type} {P : Platform} {s s' : Sys W} {a : Act W} {w : W} {i : Nat}

/-! ## Attempts to leave alone -/

/-- The run of the attempt is between its first checkpoint and its recorded outcome. -/
def Busy (s : Sys W) (i : Nat) : Prop := ∃ w, (s.worker w).job.running? = some i

/-- The attempt is in state sent, and not older than STALE_ATTEMPT_MINUTES. -/
def Young (s : Sys W) (i : Nat) : Prop :=
  (s.db.row (.attempt i)).any (fun b => b.state == .sent && s.clock ≤ b.sentAt + staleAttemptSeconds)
    = true

/-- The attempt is there, and is not in state sent or old enough. -/
def Old (s : Sys W) (i : Nat) : Prop :=
  ∃ b : Attempt, s.db.row (.attempt i) = some b ∧
    (b.state = .sent → b.sentAt + staleAttemptSeconds < s.clock)

/-- No run is in the middle of the attempt, and it is old. -/
def Quiet (s : Sys W) (i : Nat) : Prop := ¬ Busy s i ∧ Old s i

theorem old_not_young (h : Old s i) : ¬ Young s i := by
  obtain ⟨b, hb, hold⟩ := h
  intro hy
  rw [Young, hb, Option.any_some, Bool.and_eq_true, beq_iff_eq, decide_eq_true_eq] at hy
  exact Nat.lt_irrefl _ (Nat.lt_of_lt_of_le (hold hy.1) hy.2)

theorem old_of_not_young {b : Attempt} (hb : s.db.row (.attempt i) = some b) (h : ¬ Young s i) :
    Old s i := by
  refine ⟨b, hb, fun hst => ?_⟩
  by_contra hlt
  refine h ?_
  rw [Young, hb, Option.any_some, hst]
  simpa using hlt

instance [Fintype W] (s : Sys W) (i : Nat) : Decidable (Busy s i) :=
  inferInstanceAs (Decidable (∃ w, (s.worker w).job.running? = some i))

instance (s : Sys W) (i : Nat) : Decidable (Young s i) := inferInstanceAs (Decidable (_ = true))

/-- A button is pressed only for attempts whose run is over, and that are not in
state sent or old enough. -/
def buttonsWait (s : Sys W) (a : Act W) : Prop := ∀ i ∈ s.pressed a, ¬ Busy s i ∧ ¬ Young s i

instance [Fintype W] (s : Sys W) (a : Act W) : Decidable (buttonsWait s a) :=
  inferInstanceAs (Decidable (∀ i ∈ s.pressed a, ¬ Busy s i ∧ ¬ Young s i))

/-- Runs hold the lock of their sequence, and buttons wait. -/
def waitsForRuns (s : Sys W) (a : Act W) : Prop := readsItsSequence s a ∧ buttonsWait s a

instance [Fintype W] (s : Sys W) (a : Act W) : Decidable (waitsForRuns s a) :=
  inferInstanceAs (Decidable (_ ∧ _))

variable [DecidableEq W]

theorem old_step (hs : Sound s) (ho : Old s i) (h : Step P s a s') : Old s' i := by
  obtain ⟨b, hb, hold⟩ := ho
  obtain ⟨c, hc, hev, hst⟩ := (sound_onward hs h).later i b hb
  refine ⟨c, hc, fun hsent => ?_⟩
  rw [congrArg Evidence.sentAt hev]
  exact Nat.lt_of_lt_of_le (hold (hst hsent)) (step_clock h)

theorem quiet_step (hs : Sound s) (hf : Fresh s) (hq : Quiet s i) (h : Step P s a s') :
    Quiet s' i := by
  refine ⟨fun hbusy => ?_, old_step hs hq.2 h⟩
  obtain ⟨w, hw⟩ := hbusy
  rcases running_step h hw with hold | ⟨-, m, key, t, r, hjob, -⟩
  · exact hq.1 ⟨w, hold⟩
  · obtain ⟨b, hb, -⟩ := hq.2
    rw [hf w t i (by rw [hjob]; rfl)] at hb
    cases hb

/-! ## Attempts and the locks of their runs -/

/-- The attempt of a run is on record, in the sequence that the run works on. -/
def SeqCommitted (s : Sys W) : Prop :=
  ∀ w i q, (s.worker w).job.running? = some i → (s.worker w).job.seq? = some q →
    ∃ b : Attempt, s.db.row (.attempt i) = some b ∧ b.seq = q

omit [DecidableEq W] in
theorem describes_seq {e : Evidence} {m : Nat} {r : Request} (h : Describes e m r) : e.seq = r.seq := by
  simp [Evidence.seq, Request.seq, h.issuerCuit, h.posNumber, h.documentTypeCode]

theorem seqCommitted_step (hs : Sound s) (hc : SeqCommitted s) (h : Step P s a s') :
    SeqCommitted s' := by
  intro w i q hi hq
  cases seq_step h hq with
  | kept hold hkey =>
    rcases running_step h hi with hrun | ⟨-, m, key, t, r, hjob, hcommit⟩
    · obtain ⟨b, hb, hbq⟩ := hc w i q hrun hold
      obtain ⟨c, hrow, hev, -⟩ := (sound_onward hs h).later i b hb
      exact ⟨c, hrow, by rw [hev, hbq]⟩
    · obtain ⟨ht, b, hb, hd⟩ := prepared_attempt hs hjob
      obtain ⟨c, hrow, hev⟩ := commit_attempt ht hcommit hb
      rw [hjob] at hold
      cases hold
      exact ⟨c, hrow, by rw [hev, describes_seq hd]⟩
  | entered hw hread hkey =>
    rcases running_step h hi with hrun | ⟨ha, -⟩
    · rw [hw] at hrun
      cases hrun
    · cases ha

theorem reachable_seqCommitted {ok : Sys W → Act W → Prop} (h : Reachable (system P) ok s) :
    SeqCommitted s := by
  refine reachable_inv ?_
    (fun _ _ _ hr _ hc h => seqCommitted_step (reachable_sound hr) hc (step_cases h)) h
  intro s hi w i q hw
  rw [hi.workers w] at hw
  cases hw

def Job.isolated? : Job → Option (Nat × Nat)
  | .isolated _ i key _ => some (i, key)
  | _ => none

omit [DecidableEq W] in
theorem running_seq {job : Job} (h : job.running? = some i) : ∃ q, job.seq? = some q := by
  unfold Job.running? at h
  split at h
  · cases h
  · next hne =>
    cases job with
    | request m key stage =>
      cases stage with
      | locked | asking => cases h
      | prepared | recorded | sending | awaiting | answered => exact ⟨_, rfl⟩
    | _ => cases h

omit [DecidableEq W] in
theorem isolated_key {job : Job} {key : Nat} (h : job.isolated? = some (i, key)) :
    job.key? = some key ∧ job.running? = none := by
  unfold Job.isolated? at h
  split at h <;> cases h
  exact ⟨rfl, rfl⟩

omit [DecidableEq W] in
theorem isolated_not_busy {b : Attempt} {key : Nat} (hl : Locked s) (hk : Keyed P s)
    (hc : SeqCommitted s) (hw : (s.worker w).job.isolated? = some (i, key))
    (hb : s.db.row (.attempt i) = some b) (hkey : key = P.lockKey b.seq) : ¬ Busy s i := by
  rintro ⟨w', hrun⟩
  obtain ⟨hheld, hnone⟩ := isolated_key hw
  obtain ⟨q, hq⟩ := running_seq hrun
  obtain ⟨c, hrow, hcq⟩ := hc w' i q hrun hq
  rw [hb] at hrow
  cases hrow
  rw [hcq] at hkey
  obtain rfl := locked_unique hl (hheld.trans (congrArg some hkey)) (hk.working w' q hq)
  rw [hnone] at hrun
  cases hrun

/-! ## What reconciliations hold -/

/-- Buttons and crons work on old attempts, and sessions write quiet ones. -/
structure Calm (P : Platform) (s : Sys W) : Prop where
  pressed : ∀ w t i, (s.worker w).session = some t → i ∈ (s.worker w).job.pressed →
    (t.view (.attempt i)).isSome → Quiet s i
  queue : ∀ w i, i ∈ (s.worker w).job.queue → Old s i
  isolated : ∀ w i key, (s.worker w).job.isolated? = some (i, key) →
    Old s i ∧ ∃ b : Attempt, s.db.row (.attempt i) = some b ∧ key = P.lockKey b.seq
  sessions : ∀ w t i, (s.worker w).session = some t →
    t.view (.attempt i) ≠ t.snap.row (.attempt i) → Quiet s i

omit [DecidableEq W] in
theorem search_old {t : DbTx} {limit : Nat} (hs : Sound s) (hsc : Scoped s)
    (ht : (s.worker w).session = some t)
    (hi : i ∈ cronSearch s.clock t.view s.nextAttempt limit) : Old s i := by
  have hstale := (List.mem_filter.mp (List.mem_of_mem_take hi)).2
  obtain ⟨b, hb, hstale⟩ := (Option.any_eq_true _ _).mp hstale
  obtain ⟨hopen, hage⟩ := Bool.and_eq_true_iff.mp hstale
  have hsnap := side_open (hsc.sessions w t ht) hb hopen
  obtain ⟨c, hc, hev, hst⟩ := (hs.isolated t (live_session ht)).since i b hsnap
  refine ⟨c, hc, fun hsent => ?_⟩
  rw [congrArg Evidence.sentAt hev]
  simpa [hst hsent] using hage

theorem pressed_step (h : Step P s a s') (hi : i ∈ (s'.worker w).job.pressed) :
    i ∈ (s.worker w).job.pressed ∨ i ∈ s.pressed a := by
  rcases job_step h w with ⟨-, hsame⟩ | ⟨-, hjob⟩
  · exact .inl (hsame ▸ hi)
  clear h
  generalize (s'.worker w).job = j' at hi hjob
  generalize (s.worker w).job = j at hjob ⊢
  cases hjob with
  | buttons hq => exact hq i hi
  | _ => cases hi

theorem calm_pressed {t : DbTx} (hs : Sound s) (hsc : Scoped s) (hf : Fresh s) (hc : Calm P s)
    (hok : buttonsWait s a) (h : Step P s a s') (ht : (s'.worker w).session = some t)
    (hi : i ∈ (s'.worker w).job.pressed) (hsome : (t.view (.attempt i)).isSome) : Quiet s' i := by
  refine quiet_step hs hf ?_ h
  have hold : ∀ u, (s.worker w).session = some u → (u.view (.attempt i)).isSome → Quiet s i := by
    intro u hu hview
    rcases pressed_step h hi with hi | hi
    · exact hc.pressed w u i hu hi hview
    · obtain ⟨hbusy, hyoung⟩ := hok i hi
      obtain ⟨b, hb⟩ := Option.isSome_iff_exists.mp hview
      obtain ⟨c, hrow, -⟩ := side_evidence (hsc.sessions w u hu) (hs.isolated u (live_session hu)) hb
      exact ⟨hbusy, old_of_not_young hrow hyoung⟩
  cases session_step h ht with
  | same hse => exact hold t hse hsome
  | start hw =>
    rcases pressed_step h hi with hi | hi
    · rw [hw] at hi
      cases hi
    · cases hi
  | @user t u op hw hop =>
    rw [user_attempt (user_writes hop)] at hsome
    exact hold u (congrArg Worker.session hw) hsome
  | @reconcile t u j queue reply hw hrec =>
    have hse := congrArg Worker.session hw
    obtain ⟨b, m, k, env, cuit, found, c, st, hr⟩ :=
      reconcile_spec (attempt_has_move hs (live_session hse)) hrec
    refine hold u hse ?_
    by_cases hij : i = j
    · rw [hij, hr.view]
      rfl
    · rwa [hr.write, pairWrite_attempt_ne hij] at hsome

theorem calm_queue (hs : Sound s) (hsc : Scoped s) (hc : Calm P s) (h : Step P s a s')
    (hi : i ∈ (s'.worker w).job.queue) : Old s' i := by
  refine old_step hs ?_ h
  rcases job_step h w with ⟨-, hsame⟩ | ⟨-, hjob⟩
  · exact hc.queue w i (hsame ▸ hi)
  clear h
  have hold := hc.queue w i
  generalize (s'.worker w).job = j' at hi hjob
  generalize (s.worker w).job = j at hold hjob
  cases hjob with
  | search ht => exact search_old hs hsc ht hi
  | next hq => exact hold (hq i hi)
  | isolate ht hb hl => exact hold (List.mem_cons_of_mem _ hi)
  | enterIsolated | settled => exact hold hi
  | _ => cases hi

theorem calm_isolated {key : Nat} (hs : Sound s) (hsc : Scoped s) (hc : Calm P s) (h : Step P s a s')
    (hw : (s'.worker w).job.isolated? = some (i, key)) :
    Old s' i ∧ ∃ b : Attempt, s'.db.row (.attempt i) = some b ∧ key = P.lockKey b.seq := by
  suffices hold : Old s i ∧ ∃ b : Attempt, s.db.row (.attempt i) = some b ∧ key = P.lockKey b.seq by
    obtain ⟨hold, b, hb, rfl⟩ := hold
    obtain ⟨c, hrow, hev, -⟩ := (sound_onward hs h).later i b hb
    exact ⟨old_step hs hold h, c, hrow, by rw [hev]⟩
  rcases job_step h w with ⟨-, hsame⟩ | ⟨-, hjob⟩
  · exact hc.isolated w i key (hsame ▸ hw)
  clear h
  have hqueue := hc.queue w i
  have hold := hc.isolated w i key
  generalize (s'.worker w).job = j' at hw hjob
  generalize (s.worker w).job = j at hqueue hold hjob
  cases hjob with
  | isolate ht hb hl =>
    cases hw
    obtain ⟨c, hrow, hev⟩ :=
      side_evidence (hsc.sessions w _ ht) (hs.isolated _ (live_session ht)) hb
    exact ⟨hqueue List.mem_cons_self, c, hrow, by rw [hev]⟩
  | enterIsolated | settled => exact hold hw
  | _ => cases hw

theorem calm_sessions {t : DbTx} (hs : Sound s) (hf : Fresh s) (hc : Calm P s) (h : Step P s a s')
    (ht : (s'.worker w).session = some t)
    (hi : t.view (.attempt i) ≠ t.snap.row (.attempt i)) : Quiet s' i := by
  refine quiet_step hs hf ?_ h
  cases session_step h ht with
  | same hse => exact hc.sessions w t i hse hi
  | start => exact absurd rfl hi
  | @user t u op hw hop =>
    have hwrites : Writes P s (.user w op) u t := .user hw hop
    rw [writes_snap hs hwrites, user_attempt (user_writes hop)] at hi
    exact hc.sessions w u i (congrArg Worker.session hw) hi
  | @reconcile t u j queue reply hw hrec =>
    have hse := congrArg Worker.session hw
    obtain ⟨b, m, k, env, cuit, found, c, st, hr⟩ :=
      reconcile_spec (attempt_has_move hs (live_session hse)) hrec
    obtain rfl := hr.write
    rw [pairWrite_snap] at hi
    by_cases hij : i = j
    · subst hij
      exact hc.pressed w u i hse (by rw [hw]; exact List.mem_cons_self) (by rw [hr.view]; rfl)
    · rw [pairWrite_attempt_ne hij] at hi
      exact hc.sessions w u i hse hi

theorem reachable_calm (h : Reachable (system P) waitsForRuns s) : Calm P s := by
  refine reachable_inv (P := Calm P) ?_ ?_ h
  · intro s hi
    refine ⟨fun w t i ht => ?_, fun w i hq => ?_, fun w i key hw => ?_, fun w t i ht => ?_⟩
    · rw [hi.workers w] at ht
      cases ht
    · rw [hi.workers w] at hq
      cases hq
    · rw [hi.workers w] at hw
      cases hw
    · rw [hi.workers w] at ht
      cases ht
  · intro s a s' hr hok hc h
    have hs := reachable_sound hr
    have hsc := reachable_scoped hr
    have hf := reachable_fresh hr
    have hstep := step_cases h
    exact ⟨fun w t i => calm_pressed hs hsc hf hc hok.2 hstep, fun w i => calm_queue hs hsc hc hstep,
      fun w i key => calm_isolated hs hsc hc hstep, fun w t i => calm_sessions hs hf hc hstep⟩

theorem isolated_quiet {key : Nat} (hs : Reachable (system P) waitsForRuns s)
    (hw : (s.worker w).job.isolated? = some (i, key)) : Quiet s i := by
  obtain ⟨hold, b, hb, hkey⟩ := (reachable_calm hs).isolated w i key hw
  exact ⟨isolated_not_busy (reachable_locked hs) (reachable_keyed (fun _ _ h => h.1) hs)
    (reachable_seqCommitted hs) hw hb hkey, hold⟩

/-! ## Runs that wait -/

/-- The step asks ARCA for the voucher of the attempt. -/
def Queries (s : Sys W) (a : Act W) (i : Nat) : Prop :=
  ∃ w reply t, a = .consult w reply ∧ (s.worker w).target? = some (t, i)

/-- The step changes the attempt, and is not one of the run that created it. -/
def Reconciled (s s' : Sys W) (a : Act W) (i : Nat) : Prop :=
  s'.db.row (.attempt i) ≠ s.db.row (.attempt i) ∧
    ∀ w, a.worker? = some w → (s.worker w).job.attempt? ≠ some i

theorem consult_sees {t : DbTx} {reply : SoapReply (Option ConsultResponse)}
    (hw : (s.worker w).target? = some (t, i)) (h : step P s (.consult w reply) = some s') :
    (t.view (.attempt i)).isSome := by
  by_contra hnone
  rw [Option.not_isSome_iff_eq_none] at hnone
  have hrec : s.reconcile t i reply = none := by
    rw [Sys.reconcile, reconcileCertificate, hnone]
    rfl
  simp only [step, Sys.consult] at h
  unfold Worker.target? at hw
  split at hw <;> cases hw <;> simp_all

theorem queries_quiet (hs : Reachable (system P) waitsForRuns s) (h : step P s a = some s')
    (hq : Queries s a i) : Quiet s i := by
  obtain ⟨w, reply, t, rfl, hw⟩ := hq
  have hsome := consult_sees hw h
  unfold Worker.target? at hw
  split at hw
  · next heq =>
    cases hw
    exact (reachable_calm hs).pressed w t i (congrArg Worker.session heq)
      (by rw [heq]; exact List.mem_cons_self) hsome
  · next heq =>
    cases hw
    exact isolated_quiet hs (w := w) (by rw [heq]; rfl)
  · cases hw

theorem reconciled_quiet (hs : Reachable (system P) waitsForRuns s) (h : step P s a = some s')
    (hr : Reconciled s s' a i) : Quiet s i := by
  obtain ⟨hne, hother⟩ := hr
  cases attempt_changes (reachable_sound hs) (reachable_scoped hs) (step_cases h) i with
  | same heq => exact absurd heq hne
  | @session w t b c hw hold hnew hsnap hview hb hc =>
    refine (reachable_calm hs).sessions w t i (congrArg Worker.session hw) ?_
    rw [hsnap, hview]
    rintro heq
    cases heq
    rw [hb] at hc
    cases hc
  | @isolated w se queue key t b c hw hold hnew hsnap hview hb hc =>
    exact isolated_quiet hs (w := w) (by rw [hw]; rfl)
  | @own w se m key t r hw hnew => exact absurd (by rw [hw]; rfl) (hother w rfl)
  | @created w se m key t r hw hnew => exact absurd (by rw [hw]; rfl) (hother w rfl)

/-- In every run under the condition, a reconciliation neither asks ARCA for an
attempt nor changes it while its run is in progress, or while it is sent and young. -/
theorem reconciliation_waits (hs : Reachable (system P) waitsForRuns s)
    (h : step P s a = some s') (i : Nat) :
    (Queries s a i → ¬ Busy s i ∧ ¬ Young s i) ∧
      (Reconciled s s' a i → ¬ Busy s i ∧ ¬ Young s i) :=
  have hquiet (hq : Quiet s i) : ¬ Busy s i ∧ ¬ Young s i := ⟨hq.1, old_not_young hq.2⟩
  ⟨fun hq => hquiet (queries_quiet hs h hq), fun hr => hquiet (reconciled_quiet hs h hr)⟩

namespace Office

def asksFor (s : Sys (Fin 3)) (w : Fin 3) (i : Nat) : Bool :=
  (s.worker w).target?.any (·.2 == i)

theorem asksFor_spec {s : Sys (Fin 3)} {w : Fin 3} {i : Nat}
    (reply : SoapReply (Option ConsultResponse)) (h : asksFor s w i = true) :
    Queries s (.consult w reply) i := by
  obtain ⟨⟨t, j⟩, ht, hj⟩ := (Option.any_eq_true _ _).mp h
  obtain rfl := beq_iff_eq.mp hj
  exact ⟨w, reply, t, rfl, ht⟩

end Office

theorem reconciliation_waits_lost :
    ∃ s : Sys (Fin 3), Reachable (system Office.platform) waitsForRuns s ∧
      Queries s (.consult 1 Office.noVoucher) 0 ∧ ¬ Busy s 0 ∧ ¬ Young s 0 := by
  obtain ⟨s, hs, hst⟩ := Office.reaches waitsForRuns
    (Office.posted 0 0 ++ Office.recorded 0 0 0 ++ Office.lost 0 ++
      [.start 1, .search 1 50, .isolate 1, .enter 1])
    (fun s => Office.asksFor s 1 0 && (step Office.platform s (.consult 1 Office.noVoucher)).isSome)
    (by decide +kernel)
  rw [Bool.and_eq_true] at hst
  obtain ⟨s', hs'⟩ := Option.isSome_iff_exists.mp hst.2
  have hq := Office.asksFor_spec Office.noVoucher hst.1
  exact ⟨s, hs, hq, (reconciliation_waits hs hs' 0).1 hq⟩

/-- Somebody presses the button of the attempt while its run waits for the answer. -/
theorem button_does_not_wait :
    ∃ s s' : Sys (Fin 3), Reachable (system Office.platform) Always s ∧
      step Office.platform s (.consult 1 Office.noVoucher) = some s' ∧
      Queries s (.consult 1 Office.noVoucher) 0 ∧ Busy s 0 ∧ Young s 0 := by
  obtain ⟨s, hs, hst⟩ := Office.reaches Always
    (Office.posted 0 0 ++ Office.recorded 0 0 0 ++
      [.resume 0, .transmit 0, .start 1, .reconcileAttempts 1 [0]])
    (fun s => (Office.asksFor s 1 0 && decide (Busy s 0 ∧ Young s 0)) &&
      (step Office.platform s (.consult 1 Office.noVoucher)).isSome) (by decide +kernel)
  simp only [Bool.and_eq_true, decide_eq_true_eq] at hst
  obtain ⟨s', hs'⟩ := Option.isSome_iff_exists.mp hst.2
  exact ⟨s, s', hs, hs', Office.asksFor_spec _ hst.1.1, hst.1.2⟩

end ArcaEdi
