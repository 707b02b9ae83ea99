import ArcaEdi.Tickets

/-!
# What ARCA granted is not lost

The cache of a certificate is one value, written back whole after `loginCms`. A
run keeps its ticket as long as nobody else writes the row in between.
-/

namespace ArcaEdi.Registry

open Runs Snapshot

variable {W : Type} [DecidableEq W] {P : Platform} {s s' : Sys W} {a : Act W} {k : Nat}
  {service : String} {ticket : Ticket} {w : W} {tx : DbTx}

/-! ## The condition -/

/-- The certificate of a run that is about to call `loginCms`. -/
def Job.asking? : Job → Option (Nat × DbTx)
  | .token k _ (.asking tx) => some (k, tx)
  | _ => none

/-- The certificate of a run that has a ticket, not committed yet. -/
def Job.inHand? : Job → Option (Nat × DbTx)
  | .token k _ (.granted tx _) => some (k, tx)
  | _ => none

/-- The certificate has been revoked or replaced since the snapshot. -/
def Ended (s : Sys W) (p : Nat × DbTx) : Prop := p.2.snap.ver (.certificate p.1) < s.turnover p.1

/-- The row is as the snapshot has it, or the certificate has ended since. -/
def RowStands (s : Sys W) (p : Nat × DbTx) : Prop :=
  s.db.ver (.certificate p.1) = p.2.snap.ver (.certificate p.1) ∨ Ended s p

/-- ARCA grants a ticket only to a run whose row stands. As long as the run has it in
hand, no other transaction commits a write of the row, and the run is neither
interrupted nor killed. A certificate that is revoked or replaced is no matter. -/
def leavesTickets (s : Sys W) : Act W → Prop
  | .login w reply => ∀ p ∈ (s.worker w).job.asking?,
      (loginCms s.clock reply).toOption.isSome → RowStands s p
  | .commit w => ∀ se ∈ (s.worker w).session, ∀ w', ∀ p ∈ (s.worker w').job.inHand?,
      .certificate p.1 ∈ se.tx.dirty → se.ops.any (Op.ends p.1) = true ∨ Ended s p
  | .keep w => ∀ p ∈ (s.worker w).job.inHand?, ∀ w', w' ≠ w →
      ∀ q ∈ (s.worker w').job.inHand?, q.1 = p.1 → Ended s q
  | .abort w _ | .kill w => ∀ p ∈ (s.worker w).job.inHand?, Ended s p
  | _ => True

instance (s : Sys W) (p : Nat × DbTx) : Decidable (Ended s p) := inferInstanceAs (Decidable (_ < _))

instance (s : Sys W) (p : Nat × DbTx) : Decidable (RowStands s p) :=
  inferInstanceAs (Decidable (_ ∨ _))

instance [Fintype W] (s : Sys W) (a : Act W) : Decidable (leavesTickets s a) :=
  match a with
  | .login w reply => inferInstanceAs (Decidable (∀ p ∈ (s.worker w).job.asking?,
      (loginCms s.clock reply).toOption.isSome → RowStands s p))
  | .commit w => inferInstanceAs (Decidable (∀ se ∈ (s.worker w).session, ∀ w',
      ∀ p ∈ (s.worker w').job.inHand?,
        .certificate p.1 ∈ se.tx.dirty → se.ops.any (Op.ends p.1) = true ∨ Ended s p))
  | .keep w => inferInstanceAs (Decidable (∀ p ∈ (s.worker w).job.inHand?, ∀ w', w' ≠ w →
      ∀ q ∈ (s.worker w').job.inHand?, q.1 = p.1 → Ended s q))
  | .abort w _ | .kill w => inferInstanceAs (Decidable (∀ p ∈ (s.worker w).job.inHand?, Ended s p))
  | .tick _ | .start _ | .user _ _ | .rollback _ | .ask _ _ _ | .enter _ _ | .leave _ =>
    isTrue trivial

/-! ## The row of a ticket in hand -/

theorem reachable_ended {ok : Sys W → Act W → Prop} (h : Reachable (system P) ok s)
    {t : DbTx} {ops : List Op} (ht : Open s t (some ops)) (k : Nat)
    (he : ops.any (Op.ends k) = true) : .certificate k ∈ t.dirty := by
  suffices hall : ∀ t ops, Open s t (some ops) → ∀ k, ops.any (Op.ends k) = true →
      .certificate k ∈ t.dirty from hall t ops ht k he
  clear ht he
  refine reachable_inv (P := fun s => ∀ t ops, Open s t (some ops) → ∀ k,
    ops.any (Op.ends k) = true → .certificate k ∈ t.dirty) ?_ ?_ h
  · exact fun s hs t ops ht => absurd ht (initial_not_open hs)
  · intro s a s' _ _ ih hstep u ops hu k he
    generalize hops : some ops = o at hu
    cases open_source (step_cases hstep) hu with
    | old h => exact ih u ops (hops ▸ h) k he
    | new ho =>
      rw [← hops, Option.getD_some] at ho
      subst ho
      cases he
    | @op w se got op u hw ha hn hrun =>
      obtain rfl := Option.some.inj hops
      rw [List.any_cons, Bool.or_eq_true] at he
      rcases he with he | he
      · exact (run_effect hrun).ended k he
      · exact (run_effect hrun).dirty _ (ih _ _ ⟨w, .session (by rw [hw])⟩ k he)
    | stored => cases hops

omit [DecidableEq W] in
theorem inHand_spec (hj : (s.worker w).job.inHand? = some (k, tx)) :
    ∃ service ticket, (s.worker w).job = .token k service (.granted tx ticket) := by
  unfold Job.inHand? at hj
  split at hj <;> cases hj
  exact ⟨_, _, ‹_›⟩

theorem keep_inHand (h : step P s (.keep w) = some s') : (s'.worker w).job.inHand? = none := by
  simp only [step, Sys.keep] at h
  split at h
  · split at h <;> cases h
    · change (Function.update s.worker w _ w).job.inHand? = none
      rw [Function.update_self]
      rfl
    · rw [finish_worker, Function.update_self]
      rfl
  · cases h

theorem inHand_source (h : Step P s a s') (hj : (s'.worker w).job.inHand? = some (k, tx)) :
    (s.worker w).job.inHand? = some (k, tx) ∨
      ∃ reply tx', a = .login w reply ∧ (loginCms s.clock reply).toOption.isSome ∧
        (s.worker w).job.asking? = some (k, tx') ∧ tx'.snap = tx.snap ∧ s'.db = s.db ∧
        s'.turnover = s.turnover := by
  have hupdate : ∀ {w0 : W} {v : Worker}, s'.worker = Function.update s.worker w0 v →
      (w = w0 → v.job.inHand? = some (k, tx) → (s.worker w).job.inHand? = some (k, tx)) →
      (s.worker w).job.inHand? = some (k, tx) := by
    intro w0 v hs hv
    rw [hs] at hj
    by_cases hww : w = w0
    · rw [hww, Function.update_self] at hj
      exact hv hww hj
    · rwa [Function.update_of_ne hww] at hj
  cases h with
  | tick => exact .inl hj
  | start | user | raised | commit | drop | lock | enter | keep | refused | finish | abort | kill =>
    exact .inl (hupdate rfl fun _ hv => by cases hv)
  | @login w0 session got k0 service tx0 reply c ticket hw hc hr =>
    by_cases hww : w = w0
    · subst hww
      rw [setWorker_worker, Function.update_self] at hj
      cases hj
      exact .inr ⟨reply, tx0, rfl, by rw [hr]; rfl, by rw [hw]; rfl, rfl, rfl, rfl⟩
    · exact .inl (hupdate rfl fun he => absurd he hww)

theorem reachable_stands (h : Reachable (system P) leavesTickets s)
    (hj : (s.worker w).job.inHand? = some (k, tx)) : RowStands s (k, tx) := by
  suffices hall : ∀ w k tx, (s.worker w).job.inHand? = some (k, tx) → RowStands s (k, tx) from
    hall w k tx hj
  clear hj
  refine reachable_inv (P := fun s => ∀ w k tx,
    (s.worker w).job.inHand? = some (k, tx) → RowStands s (k, tx)) ?_ ?_ h
  · intro s hs w k tx hj
    rw [hs.workers w] at hj
    cases hj
  · intro s a s' hreach hok ih hstep w k tx hj
    have hcases := step_cases hstep
    rcases inHand_source hcases hj with hj' | ⟨reply, tx', rfl, hgrants, hj', hsnap, hdb, hturn⟩
    · have hold := ih w k tx hj'
      obtain ⟨service, ticket, hjob⟩ := inHand_spec hj'
      have hgrow := ((reachable_sound hreach).txs _ _ ⟨w, .granted hjob⟩).follows.ver_le (.certificate k)
      cases step_db hcases with
      | same hd ht =>
        rw [RowStands, Ended, hd, ht]
        exact hold
      | @session w0 se hw ha hf hd ht =>
        subst ha
        have hopen : Open s se.tx (some se.ops) := ⟨w0, .session hw⟩
        rw [RowStands, Ended, ht]
        by_cases hends : se.ops.any (Op.ends k) = true
        · refine .inr ?_
          rw [if_pos hends, hd, apply_ver_dirty _ (reachable_ended hreach hopen k hends)]
          exact Nat.lt_succ_of_le hgrow
        · rw [if_neg hends]
          by_cases hdirty : Key.certificate k ∈ se.tx.dirty
          · exact .inr ((hok se hw w (k, tx) hj' hdirty).resolve_left hends)
          · rw [hd, apply_ver_clean _ hdirty]
            exact hold
      | @ticket w0 j other tx0 new hj0 ha hf hd ht =>
        subst ha
        obtain ⟨-, hdirty, -⟩ := reachable_staged hreach w0 _ _ _ hj0
        have hww : w ≠ w0 := by
          rintro rfl
          rw [keep_inHand (P := P) hstep] at hj
          cases hj
        rw [RowStands, Ended, ht]
        by_cases hkj : k = j
        · exact .inr (hok (j, tx0) (by rw [hj0]; rfl) w hww (k, tx) hj' hkj)
        · rw [hd, apply_ver_clean _ (by simp [hdirty, hkj])]
          exact hold
    · have hstands := hok (k, tx') hj' hgrants
      rw [RowStands, Ended, hdb, hturn, ← hsnap]
      exact hstands

/-! ## The ticket in hand -/

/-- The ticket is committed under its service, and the entries of the other services
are what they were. -/
def Kept (s s' : Sys W) (k : Nat) (service : String) (ticket : Ticket) : Prop :=
  cachedIn (s'.db.row (.certificate k)) service = some ticket ∧
    ∀ other, other ≠ service → cachedIn (s'.db.row (.certificate k)) other =
      cachedIn (s.db.row (.certificate k)) other

theorem keep_kept {ok : Sys W → Act W → Prop} (h : Reachable (system P) ok s) {db : Db}
    (hj : (s.worker w).job = .token k service (.granted tx ticket)) (hc : tx.commit s.db = some db)
    (hdb : s'.db = db) : Kept s s' k service ticket := by
  obtain ⟨hfit, rfl⟩ := commit_eq_some.mp hc
  obtain ⟨-, hdirty, c, hsnap, -, hview⟩ := reachable_staged h w _ _ _ hj
  have hmem : Key.certificate k ∈ tx.dirty := by simp [hdirty]
  have hopen : Open s tx none := ⟨w, .granted hj⟩
  have hrow : s.db.row (.certificate k) = some c := by
    rw [fits_row_eq ((reachable_sound h).txs _ _ hopen).follows hfit hmem, hsnap]
  rw [Kept, hdb, apply_row_dirty _ hmem, hview, hrow]
  exact ⟨cached_storeToken_self, fun other hne => cached_storeToken_ne hne⟩

theorem refused_changed {ok : Sys W → Act W → Prop} (h : Reachable (system P) ok s)
    (hj : (s.worker w).job = .token k service (.granted tx ticket)) (hc : tx.commit s.db = none) :
    s.db.ver (.certificate k) ≠ tx.snap.ver (.certificate k) := by
  obtain ⟨-, hdirty, -⟩ := reachable_staged h w _ _ _ hj
  intro hver
  have hfit : tx.fits s.db := by
    intro key hkey
    rw [hdirty, List.mem_singleton] at hkey
    rw [hkey, hver]
  rw [commit_eq_some.mpr ⟨hfit, rfl⟩] at hc
  cases hc

theorem login_granted {ok : Sys W → Act W → Prop} (h : Reachable (system P) ok s)
    {reply : LoginReply} (hj : (s.worker w).job = .token k service (.asking tx))
    (hr : loginCms s.clock reply = .ok ticket) :
    ∃ s' tx', step P s (.login w reply) = some s' ∧
      (s'.worker w).job = .token k service (.granted tx' ticket) := by
  obtain ⟨-, hdirty, c, hsnap, -⟩ := reachable_staged h w _ _ _ hj
  have hview : tx.view (.certificate k) = some c := by
    rw [tx.clean _ (by simp [hdirty]), hsnap]
  have hauth : authenticate s.clock tx k service reply =
      .ok (tx.write (.certificate k) (some (c.storeToken service ticket)), ticket) := by
    simp only [authenticate, Raise.bind_eq_ok, Raise.pure_eq_ok, onCertificate_eq_ok]
    exact ⟨ticket, hr, _, ⟨c, _, hview, rfl, rfl⟩, rfl⟩
  obtain ⟨session, got, hw⟩ := worker_of_job hj
  refine ⟨_, tx.write (.certificate k) (some (c.storeToken service ticket)),
    by simp only [step, Sys.login, hw, hauth]; rfl, ?_⟩
  rw [setWorker_worker, Function.update_self]

theorem keep_enabled (hj : (s.worker w).job = .token k service (.granted tx ticket)) :
    ∃ s', step P s (.keep w) = some s' := by
  obtain ⟨session, got, hw⟩ := worker_of_job hj
  simp only [step, Sys.keep, hw]
  split <;> exact ⟨_, rfl⟩

theorem worker_other {w0 : W} {v : Worker} (hs : s'.worker = Function.update s.worker w0 v)
    (hne : w ≠ w0) : s'.worker w = s.worker w := by
  rw [hs, Function.update_of_ne hne]

/-- Every ticket that `loginCms` returned is committed, with the other entries of the
cache as they were, unless the certificate was revoked or replaced meanwhile. It
holds as long as no other transaction commits a write of the row in between. -/
theorem no_ticket_lost (h : Reachable (system P) leavesTickets s) :
    (∀ w k service tx reply ticket, (s.worker w).job = .token k service (.asking tx) →
      loginCms s.clock reply = .ok ticket → ∃ s' tx', step P s (.login w reply) = some s' ∧
        (s'.worker w).job = .token k service (.granted tx' ticket)) ∧
    ∀ w k service tx ticket, (s.worker w).job = .token k service (.granted tx ticket) →
      (∃ s', step P s (.keep w) = some s') ∧
      ∀ a s', leavesTickets s a → step P s a = some s' →
        (s'.worker w).job = .token k service (.granted tx ticket) ∨
          Kept s s' k service ticket ∨ tx.snap.ver (.certificate k) < s.turnover k := by
  refine ⟨fun w k service tx reply ticket hj hr => login_granted h hj hr, ?_⟩
  intro w k service tx ticket hj
  refine ⟨keep_enabled hj, fun a s' hok hstep => ?_⟩
  have hother : ∀ {w0 : W} {v : Worker}, s'.worker = Function.update s.worker w0 v → w ≠ w0 →
      (s'.worker w).job = .token k service (.granted tx ticket) := by
    intro w0 v hs hne
    rw [worker_other hs hne, hj]
  cases step_cases hstep with
  | tick => exact .inl hj
  | start hw | user hw | raised hw | commit hw | drop hw | lock hw | enter hw | login hw =>
    refine .inl (hother rfl ?_)
    rintro rfl
    rw [hw] at hj
    cases hj
  | @keep w0 session got k0 service0 tx0 ticket0 db hw hc =>
    by_cases hww : w = w0
    · subst hww
      rw [hw] at hj
      cases hj
      exact .inr (.inl (keep_kept h (by rw [hw]) hc rfl))
    · exact .inl (hother rfl hww)
  | @refused w0 session got k0 service0 tx0 ticket0 outcome hw hc =>
    by_cases hww : w = w0
    · subst hww
      rw [hw] at hj
      cases hj
      have hj : (s.worker w).job = .token k service (.granted tx ticket) := by rw [hw]
      have hstands : RowStands s (k, tx) := reachable_stands h (w := w) (by rw [hj]; rfl)
      exact .inr (.inr (hstands.resolve_left (refused_changed h hj hc)))
    · exact .inl (hother rfl hww)
  | @finish a w0 outcome hg =>
    refine .inl (hother (finish_worker _ _ _) ?_)
    rintro rfl
    exact hg _ _ _ _ hj
  | @abort w0 text =>
    by_cases hww : w = w0
    · subst hww
      exact .inr (.inr (hok (k, tx) (by rw [hj]; rfl)))
    · exact .inl (hother (finish_worker _ _ _) hww)
  | @kill w0 =>
    by_cases hww : w = w0
    · subst hww
      exact .inr (.inr (hok (k, tx) (by rw [hj]; rfl)))
    · exact .inl (hother (kill_worker _ _) hww)

/-- The ticket that the worker has in hand is for this service, and its certificate has
been neither revoked nor replaced since the snapshot. -/
def holdsTicket (s : Sys (Fin 2)) (w : Fin 2) (service : String) : Bool :=
  match (s.worker w).job with
  | .token k service' (.granted tx _) =>
    k == 0 && service' == service && decide (s.turnover k ≤ tx.snap.ver (.certificate k))
  | _ => false

theorem holdsTicket_spec {s : Sys (Fin 2)} {w : Fin 2} {service : String}
    (h : holdsTicket s w service = true) :
    ∃ tx ticket, (s.worker w).job = .token 0 service (.granted tx ticket) ∧
      s.turnover 0 ≤ tx.snap.ver (.certificate 0) := by
  unfold holdsTicket at h
  split at h
  · next k service' tx ticket hj =>
    rw [Bool.and_eq_true, Bool.and_eq_true, beq_iff_eq, beq_iff_eq, decide_eq_true_eq] at h
    obtain ⟨⟨rfl, rfl⟩, hver⟩ := h
    exact ⟨tx, ticket, hj, hver⟩
  · cases h

theorem no_ticket_lost_second_service :
    ∃ (s : Sys (Fin 2)) (tx : DbTx) (ticket : Ticket),
      (s.worker 1).job = .token 0 "wsfex" (.granted tx ticket) ∧
      (∃ s', step Office.platform s (.keep 1) = some s') ∧
      ∀ a s', leavesTickets s a → step Office.platform s a = some s' →
        (s'.worker 1).job = .token 0 "wsfex" (.granted tx ticket) ∨
          Kept s s' 0 "wsfex" ticket ∨ tx.snap.ver (.certificate 0) < s.turnover 0 := by
  obtain ⟨s, hs, hst⟩ := Office.reaches leavesTickets
    (Office.activated 0 ++ authenticated 0 "wsfe" 43200 ++
      [.start 1, .ask 1 0 "wsfex", .enter 1 none, .login 1 (Office.granted 43200)])
    (fun s => holdsTicket s 1 "wsfex") (by decide +kernel)
  obtain ⟨tx, ticket, hj, -⟩ := holdsTicket_spec hst
  exact ⟨s, tx, ticket, hj, (no_ticket_lost hs).2 1 0 "wsfex" tx ticket hj⟩

/-- Two workers ask for tickets of two services at once. The second commit is refused. -/
theorem ticket_lost :
    ∃ (s t : Sys (Fin 2)) (tx : DbTx) (ticket : Ticket),
      Reachable (system Office.platform) Always s ∧
      (s.worker 1).job = .token 0 "wsfex" (.granted tx ticket) ∧
      s.turnover 0 ≤ tx.snap.ver (.certificate 0) ∧
      step Office.platform s (.keep 1) = some t ∧ (t.worker 1).job.inHand? = none ∧
      cachedIn (t.db.row (.certificate 0)) "wsfex" = none := by
  obtain ⟨s, hs, hst⟩ := Office.reaches Always
    (Office.activated 0 ++ [.start 0, .start 1, .ask 0 0 "wsfe", .ask 1 0 "wsfex", .enter 0 none,
      .enter 1 none, .login 0 (Office.granted 43200), .login 1 (Office.granted 43200), .keep 0])
    (fun s => holdsTicket s 1 "wsfex" && (step Office.platform s (.keep 1)).any fun t =>
      (t.worker 1).job.inHand?.isNone && (cachedIn (t.db.row (.certificate 0)) "wsfex").isNone)
    (by decide +kernel)
  rw [Bool.and_eq_true] at hst
  obtain ⟨tx, ticket, hj, hver⟩ := holdsTicket_spec hst.1
  obtain ⟨t, ht, hlost⟩ := (Option.any_eq_true _ _).mp hst.2
  rw [Bool.and_eq_true, Option.isNone_iff_eq_none, Option.isNone_iff_eq_none] at hlost
  exact ⟨s, t, tx, ticket, hs, hj, hver, ht, hlost.1, hlost.2⟩

end ArcaEdi.Registry
