import ArcaEdi.RegistryInvariant

/-!
# Asking ARCA for a ticket

When `loginCms` is called although a ticket is still alive, and what a caller
gets for whom one is cached.
-/

namespace ArcaEdi.Registry

open Runs Snapshot

variable {W : Type} {P : Platform} {s s' : Sys W} {a : Act W} {now k : Nat} {service : String}
  {ticket : Ticket} {r : Option Certificate}

/-! ## Live tickets -/

def cachedIn (r : Option Certificate) (service : String) : Option Ticket :=
  r.bind fun c => c.cached service

/-- The cached ticket, as long as it has not expired. -/
def live (now : Nat) (r : Option Certificate) (service : String) : Option Ticket :=
  (cachedIn r service).filter fun ticket => now < ticket.expiration

theorem live_eq_some :
    live now r service = some ticket ↔ cachedIn r service = some ticket ∧ now < ticket.expiration := by
  simp [live, Option.filter_eq_some_iff]

theorem live_eq_none :
    live now r service = none ↔ ∀ ticket, cachedIn r service = some ticket → ticket.expiration ≤ now := by
  simp [live, Option.filter_eq_none_iff]

/-- A live ticket has more left than the margin that the code leaves. -/
def outsideMargin (now : Nat) (r : Option Certificate) (service : String) : Bool :=
  (live now r service).all fun ticket => now + tokenRenewalMarginSeconds < ticket.expiration

theorem readCachedToken_live {c : Certificate} (hm : outsideMargin now (some c) service = true) :
    readCachedToken now c service = live now (some c) service := by
  cases hl : live now (some c) service with
  | none =>
    by_contra hne
    obtain ⟨ticket, hticket⟩ := Option.ne_none_iff_exists'.mp hne
    obtain ⟨hcached, hlt⟩ := readCachedToken_eq_some.mp hticket
    have := live_eq_none.mp hl ticket hcached
    omega
  | some ticket =>
    rw [outsideMargin, hl, Option.all_some, decide_eq_true_eq] at hm
    exact readCachedToken_eq_some.mpr ⟨(live_eq_some.mp hl).1, hm⟩

/-! ## What may enter the cache -/

theorem change_cached {fresh : Nat} {v : View} {op : Op} {r r' : Option Certificate}
    (h : RowChange now fresh v op k r r') (hc : cachedIn r' service = some ticket) :
    cachedIn r service = some ticket := by
  have hnil : ∀ {c : Certificate}, c.tokenCache = [] → cachedIn (some c) service ≠ some ticket := by
    intro c hnil hc
    rw [cachedIn, Option.bind_some, cached_nil hnil] at hc
    cases hc
  cases h with
  | same => exact hc
  | created | copied | installed | revoked | expired => exact absurd hc (hnil rfl)
  | @saved k form file c0 =>
    unfold saved at hc
    split at hc <;> exact hc
  | generated => exact hc

/-- What a session sees in a cache was there when it began. -/
def CachesFromSnapshot (s : Sys W) : Prop :=
  ∀ t ops, Open s t (some ops) → ∀ k service ticket,
    cachedIn (t.view (.certificate k)) service = some ticket →
      cachedIn (t.snap.row (.certificate k)) service = some ticket

variable [DecidableEq W] {ok : Sys W → Act W → Prop}

theorem reachable_caches (h : Reachable (system P) ok s) : CachesFromSnapshot s := by
  refine reachable_inv ?_ ?_ h
  · exact fun s hs t ops ht => absurd ht (initial_not_open hs)
  · intro s a s' _ _ ih hstep u ops hu k service ticket hc
    generalize hops : some ops = o at hu
    cases open_source (step_cases hstep) hu with
    | old h => exact ih _ _ (hops ▸ h) k service ticket hc
    | new => exact hc
    | @op w se got op u hw ha hn hrun =>
      rw [(run_effect hrun).snap]
      exact ih _ _ ⟨w, .session (by rw [hw])⟩ k service ticket
        (change_cached ((run_effect hrun).row k) hc)
    | stored => cases hops

theorem cached_step (h : Reachable (system P) ok s) (hstep : step P s a = some s')
    (hc : cachedIn (s'.db.row (.certificate k)) service = some ticket) :
    cachedIn (s.db.row (.certificate k)) service = some ticket ∨
      ∃ w tx, (s.worker w).job = .token k service (.granted tx ticket) := by
  cases step_db (step_cases hstep) with
  | same hd => exact .inl (hd ▸ hc)
  | @session w se hw ha hf hd =>
    have hopen : Open s se.tx (some se.ops) := ⟨w, .session hw⟩
    have hfollows := ((reachable_sound h).txs _ _ hopen).follows
    rw [hd] at hc
    rcases apply_row_fits hfollows hf (.certificate k) with hsame | ⟨hsnap, hview⟩
    · exact .inl (hsame ▸ hc)
    · rw [hview] at hc
      rw [hsnap]
      exact .inl (reachable_caches h _ _ hopen k service ticket hc)
  | @ticket w j other tx new hj ha hf hd =>
    obtain ⟨-, hdirty, c, hsnap, -, hview⟩ := reachable_staged h w _ _ _ hj
    have hopen : Open s tx none := ⟨w, .granted hj⟩
    rw [hd] at hc
    by_cases hjk : j = k
    · subst hjk
      have hmem : Key.certificate j ∈ tx.dirty := by simp [hdirty]
      rw [apply_row_dirty _ hmem, hview, cachedIn, Option.bind_some] at hc
      by_cases hother : service = other
      · subst hother
        rw [cached_storeToken_self, Option.some.injEq] at hc
        exact .inr ⟨w, tx, hc ▸ hj⟩
      · rw [cached_storeToken_ne hother] at hc
        rw [fits_row_eq ((reachable_sound h).txs _ _ hopen).follows hf hmem, hsnap]
        exact .inl hc
    · rw [apply_row_clean _ (by simp [hdirty, Ne.symm hjk])] at hc
      exact .inl hc

/-! ## When `loginCms` is called -/

omit [DecidableEq W] in
theorem granted_alone (hs : Staged P s) {w w' : W} {tx tx' : DbTx}
    (hj : (s.worker w).job = .token k service (.asking tx)) :
    (s.worker w').job ≠ .token k service (.granted tx' ticket) := by
  intro hj'
  have hl := (hs w _ _ _ hj).1
  rw [(hs w' _ _ _ hj').1, Option.some.injEq] at hl
  rw [hl, hj] at hj'
  cases hj'

def usable (now : Nat) (r : Option Certificate) : Bool :=
  r.any fun c => decide (c.checkUsable now = .ok ())

/-- The look at the cache finds a ticket. -/
def found (now : Nat) (r : Option Certificate) (service : String) : Bool :=
  r.any fun c => (readCachedToken now c service).isSome

/-- The ticket that a run is about to look for under its lock. -/
def Job.locked? : Job → Option (Nat × String)
  | .token k service .locked => some (k, service)
  | _ => none

/-- No ticket is in its last minutes when it is looked for under the lock. A caller
for whom a live ticket is cached has a usable certificate, and where its own look
does not find the ticket, the database still has a live one, and the lock is free. -/
def renewsInTime (P : Platform) (s : Sys W) : Act W → Prop
  | .ask w k service => ∀ se ∈ (s.worker w).session,
      (live s.clock (se.tx.view (.certificate k)) service).isSome ∨
        (live s.clock (s.db.row (.certificate k)) service).isSome →
      usable s.clock (se.tx.view (.certificate k)) = true ∧
        (found s.clock (se.tx.view (.certificate k)) service = true ∨
          (live s.clock (s.db.row (.certificate k)) service).isSome ∧
            s.locks (P.tokenLockKey k service) = none)
  | .enter w _ => ∀ p ∈ (s.worker w).job.locked?,
      outsideMargin s.clock (s.db.row (.certificate p.1)) p.2 = true
  | _ => True

instance (P : Platform) (s : Sys W) (a : Act W) : Decidable (renewsInTime P s a) :=
  match a with
  | .ask w k service => inferInstanceAs (Decidable (∀ se ∈ (s.worker w).session,
      (live s.clock (se.tx.view (.certificate k)) service).isSome ∨
        (live s.clock (s.db.row (.certificate k)) service).isSome →
      usable s.clock (se.tx.view (.certificate k)) = true ∧
        (found s.clock (se.tx.view (.certificate k)) service = true ∨
          (live s.clock (s.db.row (.certificate k)) service).isSome ∧
            s.locks (P.tokenLockKey k service) = none)))
  | .enter w _ => inferInstanceAs (Decidable (∀ p ∈ (s.worker w).job.locked?,
      outsideMargin s.clock (s.db.row (.certificate p.1)) p.2 = true))
  | .tick _ | .start _ | .user _ _ | .commit _ | .rollback _ | .login _ _ | .keep _ | .leave _
  | .abort _ _ | .kill _ => isTrue trivial

theorem reachable_asking (h : Reachable (system P) (renewsInTime P) s) (w : W) (tx : DbTx)
    (hj : (s.worker w).job = .token k service (.asking tx)) :
    live s.clock (s.db.row (.certificate k)) service = none := by
  suffices hall : ∀ w k service tx, (s.worker w).job = .token k service (.asking tx) →
      live s.clock (s.db.row (.certificate k)) service = none from hall w k service tx hj
  clear hj
  refine reachable_inv (P := fun s => ∀ w k service tx,
    (s.worker w).job = .token k service (.asking tx) →
      live s.clock (s.db.row (.certificate k)) service = none) ?_ ?_ h
  · intro s hs w k service tx hj
    rw [hs.workers w] at hj
    cases hj
  · intro s a s' hreach hok ih hstep w k service tx hj
    have hclock := step_clock (step_cases hstep)
    have hkeep : ∀ tx', (s.worker w).job = .token k service (.asking tx') →
        live s'.clock (s'.db.row (.certificate k)) service = none := by
      intro tx' hj'
      refine live_eq_none.mpr fun ticket hc => ?_
      rcases cached_step hreach hstep hc with hold | ⟨w', tx'', hgranted⟩
      · exact Nat.le_trans (live_eq_none.mp (ih w k service tx' hj') ticket hold) hclock
      · exact absurd hgranted (granted_alone (reachable_staged hreach) hj')
    rcases asking_source (step_cases hstep) hj with hold | ⟨signing, rfl, hlocked, hr, hdb, hclk, -⟩
    · exact hkeep tx hold
    · obtain ⟨c, hc, hnone, -⟩ := readUnder_eq_none hr
      have hm := hok (k, service) (by rw [hlocked]; rfl)
      rw [hc] at hm
      rw [hdb, hclk, hc, ← readCachedToken_live hm]
      exact hnone

/-! ## What a caller gets -/

/-- The worker's run ended with a ticket that has not expired. -/
def Obtains (s s' : Sys W) (w : W) : Prop :=
  ∃ ticket, (s'.worker w).got = some (.ok ticket) ∧ s.clock < ticket.expiration

theorem finish_obtains {w : W} (hlt : s.clock < ticket.expiration) :
    Obtains s (s.finish w (.ok ticket)) w :=
  ⟨ticket, by rw [finish_worker, Function.update_self], hlt⟩

theorem usable_spec (h : usable now r = true) :
    ∃ c, r = some c ∧ c.checkUsable now = .ok () := by
  obtain ⟨c, hc, hu⟩ := (Option.any_eq_true _ _).mp h
  exact ⟨c, hc, of_decide_eq_true hu⟩

theorem ask_obtains {w : W} {se : Session} {got : Option (Except Exn Ticket)}
    (hw : s.worker w = ⟨some se, .idle, got⟩) (hok : renewsInTime P s (.ask w k service))
    (hlive : live s.clock (se.tx.view (.certificate k)) service ≠ none ∨
      live s.clock (s.db.row (.certificate k)) service ≠ none) :
    ∃ s', step P s (.ask w k service) = some s' ∧
      (Obtains s s' w ∨ (s'.worker w).job = .token k service .locked ∧
        live s'.clock (s'.db.row (.certificate k)) service ≠ none) := by
  simp only [← Option.isSome_iff_ne_none] at hlive
  obtain ⟨husable, hlook⟩ := hok se (by rw [hw]; rfl) hlive
  obtain ⟨c, hc, hcheck⟩ := usable_spec husable
  rw [hc] at hlook
  have hread : readBefore s.clock se.tx.view k service = .ok (readCachedToken s.clock c service) := by
    rw [readBefore, Raise.bind_eq_ok]
    refine ⟨c, browse_eq_ok.mpr hc, ?_⟩
    rw [beforeLock, Raise.bind_eq_ok]
    exact ⟨(), hcheck, rfl⟩
  cases hl : readCachedToken s.clock c service with
  | some ticket =>
    have hlt : s.clock < ticket.expiration := by
      have := (readCachedToken_eq_some.mp hl).2
      omega
    refine ⟨s.finish w (.ok ticket), ?_, .inl (finish_obtains hlt)⟩
    simp only [step, Sys.ask, hw, hread, hl]
  | none =>
    obtain ⟨hdb, hlock⟩ := hlook.resolve_left (by simp [found, hl])
    refine ⟨{ s.setWorker w ⟨some se, .token k service .locked, got⟩ with
      locks := Function.update s.locks (P.tokenLockKey k service) (some w) }, ?_, .inr ⟨?_, ?_⟩⟩
    · simp only [step, Sys.ask, hw, hread, hl, hlock, if_true]
    · simp
    · exact Option.isSome_iff_ne_none.mp hdb

theorem enter_obtains {w : W} {signing : Option String}
    (hj : (s.worker w).job = .token k service .locked) (hok : renewsInTime P s (.enter w signing))
    (hlive : live s.clock (s.db.row (.certificate k)) service ≠ none) :
    ∃ s', step P s (.enter w signing) = some s' ∧ Obtains s s' w := by
  obtain ⟨ticket, hl⟩ := Option.ne_none_iff_exists'.mp hlive
  obtain ⟨c, hc, -⟩ := Option.bind_eq_some_iff.mp (live_eq_some.mp hl).1
  have hm := hok (k, service) (by rw [hj]; rfl)
  rw [hc] at hm hl
  have hread : readUnder s.clock s.db.row k service signing = .ok (some ticket) := by
    refine readUnder_eq_ok.mpr ⟨c, hc, ?_⟩
    rw [underLock, readCachedToken_live hm, hl]
  obtain ⟨session, got, hw⟩ := worker_of_job hj
  refine ⟨s.finish w (.ok ticket), ?_, finish_obtains (live_eq_some.mp hl).2⟩
  simp only [step, Sys.enter, hw, start_view, hread]

/-- `loginCms` is called only while no live ticket is committed, and whoever has a
live ticket cached obtains credentials, at once or under the lock. It holds as long
as no live ticket is looked for in its last minutes. -/
theorem login_only_when_needed (h : Reachable (system P) (renewsInTime P) s) :
    (∀ w k service tx, (s.worker w).job = .token k service (.asking tx) →
      live s.clock (s.db.row (.certificate k)) service = none) ∧
    (∀ w k service se got, s.worker w = ⟨some se, .idle, got⟩ →
      renewsInTime P s (.ask w k service) →
      (live s.clock (se.tx.view (.certificate k)) service ≠ none ∨
        live s.clock (s.db.row (.certificate k)) service ≠ none) →
      ∃ s', step P s (.ask w k service) = some s' ∧
        (Obtains s s' w ∨ (s'.worker w).job = .token k service .locked ∧
          live s'.clock (s'.db.row (.certificate k)) service ≠ none)) ∧
    (∀ w k service signing, (s.worker w).job = .token k service .locked →
      renewsInTime P s (.enter w signing) →
      live s.clock (s.db.row (.certificate k)) service ≠ none →
      ∃ s', step P s (.enter w signing) = some s' ∧ Obtains s s' w) :=
  ⟨fun w _ _ tx hj => reachable_asking h w tx hj, fun _ _ _ _ _ hw hok hl => ask_obtains hw hok hl,
    fun _ _ _ _ hj hok hl => enter_obtains hj hok hl⟩

/-! ## The last minutes of a ticket -/

/-- One run of worker `w` for a ticket that lives for twelve hours. -/
def authenticated (w : Fin 2) (service : String) (expiration : Nat) : List (Act (Fin 2)) :=
  [.start w, .ask w 0 service, .enter w none, .login w (Office.granted expiration), .keep w, .leave w,
    .commit w]

/-- The worker is about to call `loginCms`, with or without a live ticket in the cache. -/
def asking (s : Sys (Fin 2)) (w : Fin 2) (alive : Bool) : Bool :=
  match (s.worker w).job with
  | .token k service (.asking _) =>
    (live s.clock (s.db.row (.certificate k)) service).isSome == alive
  | _ => false

theorem asking_spec {s : Sys (Fin 2)} {w : Fin 2} {alive : Bool} (h : asking s w alive = true) :
    ∃ k service tx, (s.worker w).job = .token k service (.asking tx) ∧
      (live s.clock (s.db.row (.certificate k)) service).isSome = alive := by
  unfold asking at h
  split at h
  · exact ⟨_, _, _, ‹_›, eq_of_beq h⟩
  · cases h

theorem login_only_when_needed_expired :
    ∃ (s : Sys (Fin 2)) (k : Nat) (service : String) (tx : DbTx),
      (s.worker 1).job = .token k service (.asking tx) ∧
      live s.clock (s.db.row (.certificate k)) service = none := by
  obtain ⟨s, hs, hst⟩ := Office.reaches (renewsInTime Office.platform)
    (Office.activated 0 ++ authenticated 0 "wsfe" 43200 ++
      [.tick 43200, .start 1, .ask 1 0 "wsfe", .enter 1 none])
    (fun s => asking s 1 false) (by decide +kernel)
  obtain ⟨k, service, tx, hj, -⟩ := asking_spec hst
  exact ⟨s, k, service, tx, hj, (login_only_when_needed hs).1 1 k service tx hj⟩

/-- Ten minutes before the ticket expires, worker 1 asks for another one. ARCA
refuses it, and worker 1 gets no credentials. -/
theorem login_while_ticket_lives :
    ∃ (s t : Sys (Fin 2)) (k : Nat) (service : String) (tx : DbTx),
      Reachable (system Office.platform) Always s ∧
      (s.worker 1).job = .token k service (.asking tx) ∧
      live s.clock (s.db.row (.certificate k)) service ≠ none ∧
      step Office.platform s (.login 1 (.fault "El CEE ya posee un TA valido")) = some t ∧
      ∃ e, (t.worker 1).got = some (.error e) := by
  obtain ⟨s, hs, hst⟩ := Office.reaches Always
    (Office.activated 0 ++ authenticated 0 "wsfe" 43200 ++
      [.tick 42600, .start 1, .ask 1 0 "wsfe", .enter 1 none])
    (fun s => asking s 1 true &&
      (step Office.platform s (.login 1 (.fault "El CEE ya posee un TA valido"))).any fun t =>
        (t.worker 1).got.any fun outcome => outcome.toOption.isNone) (by decide +kernel)
  rw [Bool.and_eq_true] at hst
  obtain ⟨k, service, tx, hj, hlive⟩ := asking_spec hst.1
  obtain ⟨t, ht, hgot⟩ := (Option.any_eq_true _ _).mp hst.2
  obtain ⟨outcome, hout, hnone⟩ := (Option.any_eq_true _ _).mp hgot
  refine ⟨s, t, k, service, tx, hs, hj, Option.isSome_iff_ne_none.mp hlive, ht, ?_⟩
  cases outcome with
  | ok ticket => cases hnone
  | error e => exact ⟨e, hout⟩

end ArcaEdi.Registry
