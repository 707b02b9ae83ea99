import ArcaEdi.RegistrySteps

/-!
# What holds of the registry in every run

Each open transaction is an old one, a new snapshot, or an old one with one more
write; the database stays or takes in one of them. From that: what a transaction
may still assume of the committed rows, which rows exist, and a rule for
properties of single records.
-/

namespace ArcaEdi.Registry

open Snapshot

/-! ## Open transactions -/

/-- A transaction of a worker. That of its session comes with what was done on it. -/
inductive Worker.Opens (v : Worker) : DbTx → Option (List Op) → Prop
  | session {se : Session} (h : v.session = some se) : v.Opens se.tx (some se.ops)
  | asking {k : Nat} {service : String} {tx : DbTx} (h : v.job = .token k service (.asking tx)) :
      v.Opens tx none
  | granted {k : Nat} {service : String} {tx : DbTx} {ticket : Ticket}
      (h : v.job = .token k service (.granted tx ticket)) :
      v.Opens tx none

variable {W : Type} {P : Platform} {s s' : Sys W} {a : Act W} {t u : DbTx} {ops : Option (List Op)}
  {w : W}

def Open (s : Sys W) (t : DbTx) (ops : Option (List Op)) : Prop := ∃ w, (s.worker w).Opens t ops

/-- Where an open transaction of the next state comes from. -/
inductive Source (s : Sys W) (a : Act W) (s' : Sys W) : DbTx → Option (List Op) → Prop
  | old {u : DbTx} {ops : Option (List Op)} (h : Open s u ops) : Source s a s' u ops
  | new {ops : Option (List Op)} (ho : ops.getD [] = []) : Source s a s' (Tx.start s.db) ops
  | op {w : W} {se : Session} {got : Option (Except Exn Ticket)} {op : Op} {u : DbTx}
      (hw : s.worker w = ⟨some se, .idle, got⟩) (ha : a = .user w op)
      (hn : s'.nextId = s.nextId + op.draws) (h : op.run s.clock s.nextId se.tx = .ok u) :
      Source s a s' u (some (op :: se.ops))
  | stored {w : W} {k : Nat} {service : String} {tx : DbTx} {c : Certificate} {ticket : Ticket}
      (hj : (s.worker w).job = .token k service (.asking tx))
      (hc : tx.view (.certificate k) = some c) :
      Source s a s' (tx.write (.certificate k) (some (c.storeToken service ticket))) none

/-- What a step does to the database. -/
inductive DbEffect (s : Sys W) (a : Act W) (s' : Sys W) : Prop
  | same (hd : s'.db = s.db) (ht : s'.turnover = s.turnover)
  | session {w : W} {se : Session} (hw : (s.worker w).session = some se) (ha : a = .commit w)
      (hf : se.tx.fits s.db) (hd : s'.db = s.db.apply se.tx)
      (ht : ∀ k, s'.turnover k =
        if se.ops.any (Op.ends k) then s'.db.ver (.certificate k) else s.turnover k)
  | ticket {w : W} {k : Nat} {service : String} {tx : DbTx} {ticket : Ticket}
      (hj : (s.worker w).job = .token k service (.granted tx ticket)) (ha : a = .keep w)
      (hf : tx.fits s.db) (hd : s'.db = s.db.apply tx) (ht : s'.turnover = s.turnover)

theorem opens_idle {session : Option Session} {got : Option (Except Exn Ticket)}
    (h : Worker.Opens ⟨session, .idle, got⟩ u ops) :
    ∃ se, session = some se ∧ u = se.tx ∧ ops = some se.ops := by
  cases h with
  | session h => exact ⟨_, h, rfl, rfl⟩
  | asking h => cases h
  | granted h => cases h

theorem initial_not_open (hs : Initial s) : ¬ Open s t ops := by
  rintro ⟨w, hw⟩
  rw [hs.workers w] at hw
  obtain ⟨se, hse, -⟩ := opens_idle hw
  cases hse

theorem sessionAfter_some {session : Option Session} {outcome : Except Exn Ticket} {se : Session}
    (h : sessionAfter session outcome = some se) : session = some se := by
  unfold sessionAfter at h
  split at h
  · exact h
  · exact h
  · cases h

section

variable [DecidableEq W]

theorem open_update {v : Worker} (hs : s'.worker = Function.update s.worker w v)
    (h : Open s' u ops) : v.Opens u ops ∨ Open s u ops := by
  unfold Open at h
  rw [hs, Function.exists_update_iff s.worker fun _ worker => worker.Opens u ops] at h
  exact h.imp_right fun ⟨w', _, hw'⟩ => ⟨w', hw'⟩

theorem open_finish {outcome : Except Exn Ticket} (h : Open (s.finish w outcome) u ops) :
    Open s u ops := by
  rcases open_update (finish_worker s w outcome) h with h | h
  · obtain ⟨se, hse, rfl, rfl⟩ := opens_idle h
    exact ⟨w, .session (sessionAfter_some hse)⟩
  · exact h

theorem open_source (h : Step P s a s') (hu : Open s' u ops) : Source s a s' u ops := by
  cases h with
  | tick => exact .old hu
  | start hw =>
    rcases open_update rfl hu with h | h
    · obtain ⟨se, hse, rfl, rfl⟩ := opens_idle h
      cases hse
      exact .new rfl
    · exact .old h
  | user hw hrun =>
    rcases open_update rfl hu with h | h
    · obtain ⟨se, hse, rfl, rfl⟩ := opens_idle h
      cases hse
      exact .op hw rfl rfl hrun
    · exact .old h
  | raised | commit | drop =>
    rcases open_update rfl hu with h | h
    · obtain ⟨se, hse, -⟩ := opens_idle h
      cases hse
    · exact .old h
  | @lock w se got k service hw =>
    rcases open_update rfl hu with h | h
    · cases h with
      | session h => exact .old ⟨w, .session (by rw [hw]; exact h)⟩
      | asking h | granted h => cases h
    · exact .old h
  | @enter w session got k service signing hw =>
    rcases open_update rfl hu with h | h
    · cases h with
      | session h => exact .old ⟨w, .session (by rw [hw]; exact h)⟩
      | asking h =>
        cases h
        exact .new rfl
      | granted h => cases h
    · exact .old h
  | @login w session got k service tx reply c ticket hw hc hr =>
    rcases open_update rfl hu with h | h
    · cases h with
      | session h => exact .old ⟨w, .session (by rw [hw]; exact h)⟩
      | asking h => cases h
      | granted h =>
        cases h
        exact .stored (by rw [hw]) hc
    · exact .old h
  | @keep w session got k service tx ticket db hw =>
    rcases open_update rfl hu with h | h
    · cases h with
      | session h => exact .old ⟨w, .session (by rw [hw]; exact h)⟩
      | asking h | granted h => cases h
    · exact .old h
  | refused | finish | abort => exact .old (open_finish hu)
  | kill =>
    rcases open_update (kill_worker _ _) hu with h | h
    · obtain ⟨se, hse, -⟩ := opens_idle h
      cases hse
    · exact .old h

theorem step_db (h : Step P s a s') : DbEffect s a s' := by
  cases h with
  | commit hw hc =>
    obtain ⟨hf, rfl⟩ := commit_eq_some.mp hc
    exact .session (by rw [hw]) rfl hf rfl fun _ => rfl
  | keep hw hc =>
    obtain ⟨hf, rfl⟩ := commit_eq_some.mp hc
    exact .ticket (by rw [hw]) rfl hf rfl rfl
  | tick | start | user | raised | drop | lock | enter | login | refused | finish | abort | kill =>
    exact .same rfl rfl

theorem step_clock (h : Step P s a s') : s.clock ≤ s'.clock := by
  cases h with
  | tick => exact Nat.le_add_right _ _
  | _ => exact Nat.le_refl _

theorem step_nextId (h : Step P s a s') : s.nextId ≤ s'.nextId := by
  cases h with
  | user | raised => exact Nat.le_add_right _ _
  | _ => exact Nat.le_refl _

end

theorem DbEffect.apply (h : DbEffect s a s') :
    s'.db = s.db ∨ ∃ t ops, Open s t ops ∧ t.fits s.db ∧ s'.db = s.db.apply t := by
  cases h with
  | same hd => exact .inl hd
  | session hw ha hf hd => exact .inr ⟨_, _, ⟨_, .session hw⟩, hf, hd⟩
  | ticket hj ha hf hd => exact .inr ⟨_, _, ⟨_, .granted hj⟩, hf, hd⟩

/-! ## Isolation -/

/-- An open transaction, against the committed rows. -/
structure Isolated (s : Sys W) (t : DbTx) : Prop where
  follows : Follows unguarded t.snap s.db
  snap : ∀ k, s.nextId ≤ k → t.snap.row (.certificate k) = none
  view : ∀ k, s.nextId ≤ k → t.view (.certificate k) = none

/-- Ids are fresh, and open transactions are isolated. -/
structure Sound (s : Sys W) : Prop where
  fresh : ∀ k, s.nextId ≤ k → s.db.row (.certificate k) = none
  txs : ∀ t ops, Open s t ops → Isolated s t

variable [DecidableEq W] {ok : Sys W → Act W → Prop}

omit [DecidableEq W] in
theorem isolated_mono (h : Isolated s t) (hf : Follows unguarded s.db s'.db)
    (hn : s.nextId ≤ s'.nextId) : Isolated s' t :=
  ⟨follows_trans h.follows hf, fun k hk => h.snap k (Nat.le_trans hn hk),
    fun k hk => h.view k (Nat.le_trans hn hk)⟩

omit [DecidableEq W] in
theorem sound_follows (hs : Sound s) (h : DbEffect s a s') : Follows unguarded s.db s'.db := by
  rcases h.apply with hd | ⟨t, ops, ht, hf, hd⟩ <;> rw [hd]
  · exact follows_refl _
  · exact follows_apply (hs.txs t ops ht).follows (covers_unguarded t) hf

theorem run_fresh {now fresh k : Nat} {op : Op} (h : op.run now fresh t = .ok u)
    (hv : ∀ k, fresh ≤ k → t.view (.certificate k) = none) (hk : fresh + op.draws ≤ k) :
    u.view (.certificate k) = none := by
  have hold : t.view (.certificate k) = none := hv k (by omega)
  have hne : op.draws = 1 → k ≠ fresh := by omega
  have hrow := (run_effect h).row k
  rw [hold] at hrow
  generalize u.view (.certificate k) = r at hrow
  cases hrow with
  | same => rfl
  | created ho =>
    rcases ho with rfl | ⟨rfl, -⟩
    · exact absurd rfl (hne rfl)
    · exact absurd rfl (hne rfl)
  | copied ho hc =>
    subst ho
    exact absurd rfl (hne rfl)

theorem reachable_sound (h : Runs.Reachable (system P) ok s) : Sound s := by
  refine Runs.reachable_inv ?_ ?_ h
  · intro s hs
    exact ⟨fun k _ => hs.certificates k, fun t ops ht => absurd ht (initial_not_open hs)⟩
  · intro s a s' _ _ ih hstep
    have hstep := step_cases hstep
    have hf := sound_follows ih (step_db hstep)
    have hn := step_nextId hstep
    refine ⟨?_, ?_⟩
    · intro k hk
      have hk' := Nat.le_trans hn hk
      rcases (step_db hstep).apply with hd | ⟨t, ops, ht, -, hd⟩ <;> rw [hd]
      · exact ih.fresh k hk'
      · rcases apply_row s.db t (.certificate k) with h | h <;> rw [h]
        · exact ih.fresh k hk'
        · exact (ih.txs t ops ht).view k hk'
    · intro u ops hu
      cases open_source hstep hu with
      | old h => exact isolated_mono (ih.txs _ _ h) hf hn
      | new => exact isolated_mono ⟨follows_refl _, ih.fresh, ih.fresh⟩ hf hn
      | @op w se got op u hw ha hn' hrun =>
        have hold := ih.txs _ _ ⟨w, .session (by rw [hw])⟩
        have hsnap := (run_effect hrun).snap
        refine ⟨hsnap ▸ follows_trans hold.follows hf, fun k hk => ?_, fun k hk => ?_⟩
        · rw [hsnap]
          exact hold.snap k (Nat.le_trans hn hk)
        · exact run_fresh hrun hold.view (hn' ▸ hk)
      | @stored w k service tx c ticket hj hc =>
        have hold := ih.txs _ _ ⟨w, .asking hj⟩
        refine isolated_mono ⟨hold.follows, hold.snap, fun i hi => ?_⟩ hf hn
        have hik : i ≠ k := by
          rintro rfl
          rw [hold.view i hi] at hc
          cases hc
        rw [write_view_ne _ _ (by simpa using hik)]
        exact hold.view i hi

/-! ## Runs of `_get_or_refresh_token` -/

/-- The work transaction has written nothing but the ticket, for a record with a key. -/
def TokenStage.Good (k : Nat) (service : String) : TokenStage → Prop
  | .locked | .kept _ => True
  | .asking tx => tx.dirty = [] ∧ ∃ c, tx.snap.row (.certificate k) = some c ∧ c.privateKey ≠ none
  | .granted tx ticket => tx.dirty = [.certificate k] ∧
    ∃ c, tx.snap.row (.certificate k) = some c ∧ c.privateKey ≠ none ∧
      tx.view (.certificate k) = some (c.storeToken service ticket)

/-- Every run holds its lock. -/
def Staged (P : Platform) (s : Sys W) : Prop :=
  ∀ w k service stage, (s.worker w).job = .token k service stage →
    s.locks (P.tokenLockKey k service) = some w ∧ stage.Good k service

theorem readUnder_eq_none {now k : Nat} {v : View} {service : String} {signing : Option String}
    (h : readUnder now v k service signing = .ok none) :
    ∃ c, v (.certificate k) = some c ∧ readCachedToken now c service = none ∧ c.privateKey ≠ none := by
  obtain ⟨c, hc, h⟩ := readUnder_eq_ok.mp h
  refine ⟨c, hc, ?_⟩
  unfold underLock at h
  split at h
  · cases h
  · next hnone =>
    rw [Raise.bind_eq_ok] at h
    obtain ⟨⟨⟩, hsign, -⟩ := h
    refine ⟨hnone, ?_⟩
    unfold Certificate.signTra at hsign
    rw [Raise.bind_eq_ok] at hsign
    obtain ⟨key, hkey, -⟩ := hsign
    simp [Certificate.loadPrivateKey_eq_ok.mp hkey]

theorem staged_update {v : Worker} (hs : Staged P s) (hw : s'.worker = Function.update s.worker w v)
    (hlocks : ∀ w' key, w' ≠ w → s.locks key = some w' → s'.locks key = some w')
    (hv : ∀ k service stage, v.job = .token k service stage →
      s'.locks (P.tokenLockKey k service) = some w ∧ stage.Good k service) : Staged P s' := by
  intro w' k service stage hj
  rw [hw] at hj
  by_cases hww : w' = w
  · subst hww
    rw [Function.update_self] at hj
    exact hv k service stage hj
  · rw [Function.update_of_ne hww] at hj
    obtain ⟨hl, hg⟩ := hs w' k service stage hj
    exact ⟨hlocks w' _ hww hl, hg⟩

theorem staged_release {v : Worker} (hs : Staged P s) (hw : s'.worker = Function.update s.worker w v)
    (hl : s'.locks = (s.release w).locks) (hv : v.job = .idle) : Staged P s' := by
  refine staged_update hs hw ?_ (fun k service stage hj => by rw [hv] at hj; cases hj)
  intro w' key hne hkey
  rw [hl]
  change (if s.locks key = some w then none else s.locks key) = some w'
  rw [hkey, if_neg (by simpa using hne)]

theorem reachable_staged (h : Runs.Reachable (system P) ok s) : Staged P s := by
  refine Runs.reachable_inv ?_ ?_ h
  · intro s hs w k service stage hj
    rw [hs.workers w] at hj
    cases hj
  · intro s a s' _ _ ih hstep
    have hidle : ∀ {session : Option Session} {got : Option (Except Exn Ticket)} {k : Nat}
        {service : String} {stage : TokenStage},
        (⟨session, .idle, got⟩ : Worker).job ≠ .token k service stage := by simp
    cases step_cases hstep with
    | tick => exact ih
    | start | user | raised | commit | drop =>
      exact staged_update ih rfl (fun _ _ _ h => h) (fun _ _ _ hj => absurd hj hidle)
    | @lock w se got k service hw hr hl =>
      refine staged_update ih rfl ?_ ?_
      · intro w' key hne hkey
        have hother : key ≠ P.tokenLockKey k service := by
          rintro rfl
          rw [hl] at hkey
          cases hkey
        exact (Function.update_of_ne hother ..).trans hkey
      · rintro k service stage ⟨⟩
        exact ⟨Function.update_self .., trivial⟩
    | @enter w session got k service signing hw hr =>
      refine staged_update ih rfl (fun _ _ _ h => h) ?_
      rintro k service stage ⟨⟩
      obtain ⟨c, hc, -, hkey⟩ := readUnder_eq_none hr
      exact ⟨(ih w _ _ _ (by rw [hw])).1, rfl, c, hc, hkey⟩
    | @login w session got k service tx reply c ticket hw hc hr =>
      refine staged_update ih rfl (fun _ _ _ h => h) ?_
      rintro k service stage ⟨⟩
      obtain ⟨hl, hdirty, c', hc', hkey⟩ := ih w _ _ _ (by rw [hw])
      have hsame : c' = c := by
        rw [tx.clean _ (by simp [hdirty]), hc'] at hc
        exact Option.some.inj hc
      subst hsame
      exact ⟨hl, by rw [write_dirty, hdirty], c', hc', hkey, write_view_self ..⟩
    | @keep w session got k service tx ticket db hw hc =>
      refine staged_update ih rfl (fun _ _ _ h => h) ?_
      rintro k service stage ⟨⟩
      exact ⟨(ih w _ _ _ (by rw [hw])).1, trivial⟩
    | refused | finish | abort => exact staged_release ih (finish_worker _ _ _) rfl rfl
    | kill => exact staged_release ih (kill_worker _ _) rfl rfl

theorem job_update {v : Worker} {w' : W} {job : Job} (hs : s'.worker = Function.update s.worker w v)
    (hj : (s'.worker w').job = job) : (w' = w ∧ v.job = job) ∨ (s.worker w').job = job := by
  rw [hs] at hj
  by_cases hww : w' = w
  · subst hww
    rw [Function.update_self] at hj
    exact .inl ⟨rfl, hj⟩
  · rw [Function.update_of_ne hww] at hj
    exact .inr hj

theorem asking_source {k : Nat} {service : String} {tx : DbTx} (h : Step P s a s')
    (hj : (s'.worker w).job = .token k service (.asking tx)) :
    (s.worker w).job = .token k service (.asking tx) ∨
      ∃ signing, a = .enter w signing ∧ (s.worker w).job = .token k service .locked ∧
        readUnder s.clock s.db.row k service signing = .ok none ∧ s'.db = s.db ∧
        s'.clock = s.clock ∧ tx = Tx.start s.db := by
  cases h with
  | tick => exact .inl hj
  | start | user | raised | commit | drop | lock | login | keep | refused | finish | abort | kill =>
    rcases job_update rfl hj with ⟨-, hv⟩ | hold
    · cases hv
    · exact .inl hold
  | @enter w0 session got k0 service0 signing hw hr =>
    rcases job_update rfl hj with ⟨rfl, hv⟩ | hold
    · cases hv
      exact .inr ⟨signing, rfl, by rw [hw], hr, rfl, rfl, rfl⟩
    · exact .inl hold

/-! ## Single records -/

/-- Every record has the property: the committed ones, and those that a transaction sees. -/
structure Rows (Q : Certificate → Prop) (s : Sys W) : Prop where
  db : ∀ k c, s.db.row (.certificate k) = some c → Q c
  txs : ∀ t ops, Open s t ops → ∀ k c, t.view (.certificate k) = some c → Q c

theorem reachable_rows {Q : Certificate → Prop}
    (hop : ∀ (s : Sys W) (w : W) (se : Session) (op : Op) (k : Nat) (c : Certificate),
      ok s (.user w op) → (s.worker w).session = some se →
      (∀ k c, se.tx.view (.certificate k) = some c → Q c) →
      RowChange s.clock s.nextId se.tx.view op k (se.tx.view (.certificate k)) (some c) → Q c)
    (hticket : ∀ c service ticket, Q c → c.privateKey ≠ none → Q (c.storeToken service ticket))
    (h : Runs.Reachable (system P) ok s) : Rows Q s := by
  refine Runs.reachable_inv ?_ ?_ h
  · intro s hs
    refine ⟨fun k c hc => ?_, ?_⟩
    · rw [hs.certificates k] at hc
      cases hc
    · exact fun t ops ht => absurd ht (initial_not_open hs)
  · intro s a s' hreach hok ih hstep
    have hcases := step_cases hstep
    refine ⟨?_, ?_⟩
    · intro k c hc
      rcases (step_db hcases).apply with hd | ⟨t, ops, ht, -, hd⟩ <;> rw [hd] at hc
      · exact ih.db k c hc
      · rcases apply_row s.db t (.certificate k) with h | h <;> rw [h] at hc
        · exact ih.db k c hc
        · exact ih.txs t ops ht k c hc
    · intro u ops hu k c hc
      cases open_source hcases hu with
      | old h => exact ih.txs _ _ h k c hc
      | new => exact ih.db k c hc
      | @op w se got op u hw ha hn hrun =>
        subst ha
        have hold := ih.txs _ _ ⟨w, .session (by rw [hw])⟩
        exact hop s w se op k c hok (by rw [hw]) hold (hc ▸ (run_effect hrun).row k)
      | @stored w j service tx c0 ticket hj hc0 =>
        have hold := ih.txs _ _ ⟨w, .asking hj⟩
        by_cases hkj : k = j
        · subst hkj
          rw [write_view_self, Option.some.injEq] at hc
          obtain ⟨-, hdirty, c1, hc1, hkey⟩ := reachable_staged hreach w _ _ _ hj
          have hsame : c1 = c0 := by
            rw [tx.clean _ (by simp [hdirty]), hc1] at hc0
            exact Option.some.inj hc0
          rw [← hc]
          exact hticket c0 service ticket (hold k c0 hc0) (hsame ▸ hkey)
        · rw [write_view_ne _ _ (by simpa using hkj)] at hc
          exact hold k c hc

/-- A draft has no key yet, and a revoked record has lost it with its tickets. -/
structure Proper (c : Certificate) : Prop where
  draft : c.state = .draft → c.privateKey = none
  revoked : c.state = .revoked → c.privateKey = none ∧ c.tokenCache = []

omit [DecidableEq W] in
theorem change_proper {now fresh k : Nat} {v : View} {op : Op} {c : Certificate}
    (hv : ∀ k c, v (.certificate k) = some c → Proper c)
    (h : RowChange now fresh v op k (v (.certificate k)) (some c)) : Proper c := by
  have hold := hv k
  generalize v (.certificate k) = r at h hold
  cases h with
  | same => exact hold c rfl
  | created => exact ⟨fun _ => rfl, nofun⟩
  | copied => exact ⟨fun _ => rfl, nofun⟩
  | @saved k form file c0 =>
    obtain ⟨hdraft, hrevoked⟩ := hold c0 rfl
    unfold saved
    split <;> exact ⟨hdraft, hrevoked⟩
  | generated => exact ⟨nofun, nofun⟩
  | installed => exact ⟨nofun, nofun⟩
  | revoked => exact ⟨nofun, fun _ => ⟨rfl, rfl⟩⟩
  | expired => exact ⟨nofun, nofun⟩

theorem reachable_proper (h : Runs.Reachable (system P) ok s) : Rows Proper s := by
  refine reachable_rows ?_ ?_ h
  · intro s w se op k c _ _ hv hchange
    exact change_proper hv hchange
  · intro c service ticket hc hkey
    exact ⟨hc.draft, fun hr => absurd (hc.revoked hr).1 hkey⟩

end ArcaEdi.Registry
