import ArcaEdi.Vouchers

/-!
# The trail of attempts

The attempts are what an audit has to go by. None is ever lost, and what it records of its
request stays. Where a run rejoins only an open attempt, one that is closed never changes.
-/

namespace ArcaEdi

open Snapshot Runs

variable {W : Type} {P : Platform} {s s' : Sys W} {a : Act W}

/-! ## The attempt that a run works on -/

/-- The attempt of a run, and the transaction that holds its second snapshot. -/
def Job.rejoined? : Job → Option (Nat × DbTx)
  | .request _ _ (.sending t i _) | .request _ _ (.awaiting t i _)
  | .request _ _ (.answered t i _) => some (i, t)
  | _ => none

/-- A run takes its second snapshot only while its own attempt is open. -/
def rejoinsOpen (s : Sys W) : Act W → Bool
  | .resume w => (s.worker w).job.resuming?.all fun p =>
    (s.db.row (.attempt p.2)).any (·.state.isOpen)
  | _ => true

/-- Every run that has its second snapshot finds its attempt open there. -/
def RejoinedOpen (s : Sys W) : Prop :=
  ∀ w i t, (s.worker w).job.rejoined? = some (i, t) →
    (t.snap.row (.attempt i)).any (·.state.isOpen) = true

variable [DecidableEq W]

theorem rejoined_cases {w : W} {i : Nat} {t : DbTx} (hs : Sound s) (h : Step P s a s')
    (hw : (s'.worker w).job.rejoined? = some (i, t)) :
    (∃ t', (s.worker w).job.rejoined? = some (i, t') ∧ t.snap = t'.snap) ∨
      a = .resume w ∧ t = Tx.start s.db ∧ ∃ m, (s.worker w).job.resuming? = some (m, i) := by
  have hjobs := hs.jobs w
  rcases job_step h w with ⟨-, hsame⟩ | ⟨-, hjob⟩
  · exact .inl ⟨t, hsame ▸ hw, rfl⟩
  clear h
  generalize (s'.worker w).job = j' at hw hjob
  generalize (s.worker w).job = j at hjobs hjob ⊢
  cases hjob with
  | resume =>
    cases hw
    exact .inr ⟨rfl, rfl, _, rfl⟩
  | transmit =>
    cases hw
    exact .inl ⟨_, rfl, rfl⟩
  | outcome hf h =>
    cases hw
    obtain ⟨-, b, hb, -⟩ := hf.made hjobs
    obtain ⟨c, st, rfl, -⟩ := outcome_spec hb h
    cases hf <;> exact .inl ⟨_, rfl, rfl⟩
  | _ => cases hw

theorem rejoinedOpen_step (hs : Sound s) (hok : rejoinsOpen s a = true) (ho : RejoinedOpen s)
    (h : Step P s a s') : RejoinedOpen s' := by
  intro w i t hw
  rcases rejoined_cases hs h hw with ⟨t', hold, hsnap⟩ | ⟨rfl, rfl, m, hr⟩
  · rw [hsnap]
    exact ho w i t' hold
  · simpa [rejoinsOpen, hr] using hok

theorem reachable_rejoinedOpen (h : Reachable (system P) (fun s a => rejoinsOpen s a = true) s) :
    RejoinedOpen s := by
  refine reachable_inv ?_ (fun _ _ _ hr hok ho h =>
    rejoinedOpen_step (reachable_sound hr) hok ho (step_cases h)) h
  intro s hi w i t hw
  rw [hi.workers w] at hw
  cases hw

/-! ## Closed attempts -/

theorem closed_step {i : Nat} {b : Attempt} (hs : Sound s) (hsc : Scoped s) (hf : Fresh s)
    (ho : RejoinedOpen s) (h : Step P s a s') (hb : s.db.row (.attempt i) = some b)
    (hclosed : b.state.isOpen = false) : s'.db.row (.attempt i) = some b := by
  cases attempt_changes hs hsc h i with
  | same hsame => rw [hsame, hb]
  | session _ hold _ _ _ hopen | isolated _ hold _ _ _ hopen =>
    rw [hb] at hold
    cases hold
    rw [hclosed] at hopen
    cases hopen
  | @created w se m key t r hw =>
    rw [hf w t i (by rw [hw]; rfl)] at hb
    cases hb
  | @own w se m key t r hw hnew =>
    have hsnap := ho w i t (by rw [hw]; rfl)
    rcases step_commits h with hdb | ⟨u, hu, hc⟩
    · rw [hdb, hb]
    · obtain rfl : u = t := by
        cases hu with
        | settle hw' =>
          rw [hw] at hw'
          cases hw'
          rfl
        | isolated hw' =>
          rw [hw] at hw'
          cases hw'
      rcases commit_row (hu.isolated_tx hs) hc (.attempt i) with hrow | ⟨hrow, -⟩
      · rw [hrow, hb]
      · rw [← hrow, hb, Option.any_some, hclosed] at hsnap
        cases hsnap

/-- In every run whose second snapshots meet the condition, an attempt stays on record with
what it recorded, does not go back to sent, and is never changed again once it is closed. -/
theorem closed_attempt_final {t : Sys W} {i : Nat} {b : Attempt}
    (hs : Reachable (system P) (fun s a => rejoinsOpen s a = true) s)
    (ht : Leads (system P) (fun s a => rejoinsOpen s a = true) s t)
    (hb : s.db.row (.attempt i) = some b) :
    ∃ c : Attempt, t.db.row (.attempt i) = some c ∧ c.toEvidence = b.toEvidence ∧
      (c.state = .sent → b.state = .sent) ∧ (b.state.isOpen = false → c = b) := by
  refine leads_keep (P := fun t => ∃ c : Attempt, t.db.row (.attempt i) = some c ∧
    c.toEvidence = b.toEvidence ∧ (c.state = .sent → b.state = .sent) ∧
      (b.state.isOpen = false → c = b)) hs ?_ ht ⟨b, hb, rfl, id, fun _ => rfl⟩
  rintro u a u' hu hok ⟨c, hc, hev, hsent, hsame⟩ hstep
  have hsound := reachable_sound hu
  obtain ⟨d, hd, hev', hsent'⟩ := (sound_onward hsound (step_cases hstep)).later i c hc
  refine ⟨d, hd, hev'.trans hev, fun hst => hsent (hsent' hst), fun hclosed => ?_⟩
  obtain rfl := hsame hclosed
  have hkept := closed_step hsound (reachable_scoped hu) (reachable_fresh hu)
    (reachable_rejoinedOpen hu) (step_cases hstep) hc hclosed
  exact Option.some.inj (hd.symm.trans hkept)

theorem closed_attempt_final_aborted :
    ∃ (s t : Sys (Fin 3)) (b c : Attempt), s.db.row (.attempt 0) = some b ∧ b.state = .aborted ∧
      t.db.row (.attempt 0) = some c ∧ c = b ∧ Office.arcaState t 0 = .authorized := by
  obtain ⟨s, t, hs, ht, hst⟩ := Office.reaches_then (fun s a => rejoinsOpen s a = true)
    (Office.posted 0 0 ++ Office.recorded 0 0 0 ++ Office.lost 0 ++ Office.cron 1 Office.noVoucher)
    (Office.recorded 0 0 0 ++ Office.approved 0 1 "74000000000001")
    (fun s t => Office.attemptIs s 0 0 .aborted && Office.arcaState t 0 == .authorized)
    (by decide +kernel)
  rw [Bool.and_eq_true, beq_iff_eq] at hst
  obtain ⟨b, hb, -, hstate⟩ := Office.attemptIs_spec hst.1
  obtain ⟨c, hc, -, -, hfinal⟩ := closed_attempt_final hs ht hb
  exact ⟨s, t, b, c, hb, hstate, hc, hfinal (by rw [hstate]; rfl), hst.2⟩

end ArcaEdi
