import Mathlib.Data.Fintype.Basic
import ArcaEdi.Agreement
import ArcaEdi.Ownership

/-!
# One voucher, one invoice

The unique index of authorized attempts is scoped by company, and reads the CUIT
as text. When that is enough to keep two invoices off one voucher.
-/

namespace ArcaEdi

open Snapshot Runs

variable {W : Type} {P : Platform} {s s' : Sys W} {a : Act W}

/-! ## The unique index -/

/-- No two authorized attempts have one index entry, whatever their ids. -/
def Indexed (v : View) : Prop :=
  ∀ i j, authorizedDocument v i ≠ none → authorizedDocument v i = authorizedDocument v j → i = j

theorem authorizedDocument_some {v : View} {i : Nat} {b : Attempt} (hb : v (.attempt i) = some b)
    (hst : b.state = .authorized) : authorizedDocument v i = some b.document := by
  simp [authorizedDocument, hb, hst]

theorem authorizedDocument_known {v : View} {n i : Nat} (hk : Known v n)
    (h : authorizedDocument v i ≠ none) : i < n := by
  obtain ⟨d, hd⟩ := Option.ne_none_iff_exists'.mp h
  obtain ⟨b, hb, -⟩ := Option.bind_eq_some_iff.mp hd
  exact (hk i b hb).1

theorem indexed_of_unique {v : View} {n : Nat} (hk : Known v n) (hu : uniqueAuthorized v n) :
    Indexed v := by
  intro i j hi hij
  exact hu i (authorizedDocument_known hk hi) j (authorizedDocument_known hk (hij ▸ hi)) hi hij

variable [DecidableEq W]

theorem indexed_step (hs : Sound s) (hi : Indexed s.db.row) (h : Step P s a s') :
    Indexed s'.db.row := by
  rcases step_commits h with hdb | ⟨t, ht, hc⟩
  · rw [hdb]
    exact hi
  · obtain ⟨hfit, hdb, hu⟩ := commitTx_spec hc
    have hk := (isolated_commit (ht.isolated_tx hs) hs.known hfit).2.2
    rw [← hdb] at hk
    exact indexed_of_unique hk hu

theorem reachable_indexed {ok : Sys W → Act W → Prop} (h : Reachable (system P) ok s) :
    Indexed s.db.row := by
  refine reachable_inv (P := fun s => Indexed s.db.row) ?_
    (fun _ _ _ hr _ hi h => indexed_step (reachable_sound hr) hi (step_cases h)) h
  intro s hi i j hne
  simp [authorizedDocument, hi.attempts i] at hne

/-! ## Attempts in play -/

/-- Who asks ARCA for one voucher has one entry in the index. -/
def IndexedTogether (b c : Evidence) : Prop :=
  b.coordinates ≠ none → b.coordinates = c.coordinates → b.document = c.document

instance (b c : Evidence) : Decidable (IndexedTogether b c) :=
  inferInstanceAs (Decidable (b.coordinates ≠ none → _))

theorem indexedTogether_symm {b c : Evidence} (h : IndexedTogether b c) : IndexedTogether c b :=
  fun hne he => (h (he ▸ hne) he.symm).symm

/-- At the first checkpoint of a run, an attempt in play that asks for the same
voucher is of the same company, with the same text for its CUIT. -/
def oneIndexEntry (s : Sys W) : Act W → Prop
  | .checkpoint w => ∀ p ∈ (s.worker w).job.prepared?, ∀ b ∈ p.1.view (.attempt p.2),
    ∀ j < s.nextAttempt, InPlay AttemptState.isLive s j → ∀ c ∈ s.db.row (.attempt j),
      IndexedTogether b.toEvidence c.toEvidence
  | _ => True

instance [Fintype W] (s : Sys W) (a : Act W) : Decidable (oneIndexEntry s a) :=
  match a with
  | .checkpoint w => inferInstanceAs (Decidable (∀ p ∈ (s.worker w).job.prepared?,
      ∀ b ∈ p.1.view (.attempt p.2), ∀ j < s.nextAttempt, InPlay AttemptState.isLive s j →
        ∀ c ∈ s.db.row (.attempt j), IndexedTogether b.toEvidence c.toEvidence))
  | .tick | .start _ | .user _ _ | .commit _ | .rollback _ | .request _ _ | .enter _
  | .lastAuthorized _ _ | .resume _ | .sendFails _ _ | .transmit _ | .answer _ _ _
  | .reconcileMove _ _ | .reconcileAttempts _ _ | .search _ _ | .isolate _ | .consult _ _ | .skip _
  | .settle _ | .abort _ | .kill _ | .ticket _ _ | .record _ _ | .refuse _ | .elsewhere _ _ =>
    isTrue trivial

theorem isLive_of_isOpen (st : AttemptState) (h : st.isOpen = true) : st.isLive = true := by
  simp [AttemptState.isLive, h]

def PlayIndexed (s : Sys W) : Prop :=
  ∀ i j b c, InPlay AttemptState.isLive s i → InPlay AttemptState.isLive s j →
    s.db.row (.attempt i) = some b → s.db.row (.attempt j) = some c →
      IndexedTogether b.toEvidence c.toEvidence

theorem playIndexed_step (hs : Sound s) (hsc : Scoped s) (hcom : Committed s)
    (hok : oneIndexEntry s a) (hp : PlayIndexed s) (h : Step P s a s') : PlayIndexed s' := by
  have hnew : ∀ {w m key t r i j b c}, (s.worker w).job = .request m key (.prepared t i r) →
      a = .checkpoint w → t.view (.attempt i) = some b → InPlay AttemptState.isLive s j →
      s.db.row (.attempt j) = some c → IndexedTogether b.toEvidence c.toEvidence := by
    rintro w m key t r i j b c hw rfl hb hj hc
    exact hok (t, i) (by rw [hw]; rfl) b hb j (hs.known j c hc).1 hj c hc
  intro i j b c hi hj hb hc
  cases play_step isLive_of_isOpen hs hsc hcom h hi hb with
  | kept hpi hbi hbev =>
    cases play_step isLive_of_isOpen hs hsc hcom h hj hc with
    | kept hpj hcj hcev =>
      rw [hbev, hcev]
      exact hp i j _ _ hpi hpj hbi hcj
    | created hw hcj hcev =>
      rw [hbev, hcev]
      exact indexedTogether_symm (hnew hw rfl hcj hpi hbi)
  | created hw hbi hbev =>
    cases play_step isLive_of_isOpen hs hsc hcom h hj hc with
    | kept hpj hcj hcev =>
      rw [hbev, hcev]
      exact hnew hw rfl hbi hpj hcj
    | created hw' hcj hcev =>
      rw [hw] at hw'
      cases hw'
      rw [hbi] at hcj
      cases hcj
      rw [hbev, hcev]
      exact fun _ _ => rfl

theorem reachable_playIndexed (h : Reachable (system P) oneIndexEntry s) : PlayIndexed s := by
  refine reachable_inv ?_ ?_ h
  · intro s hi i j b c _ _ hb
    rw [hi.attempts i] at hb
    cases hb
  · intro s a s' hr hok hp h
    exact playIndexed_step (reachable_sound hr) (reachable_scoped hr) (reachable_committed hr) hok hp
      (step_cases h)

/-! ## One voucher, one invoice -/

/-- The invoice has an authorized attempt, and `c` is the voucher that it asked for. -/
def AuthorizedUnder (v : View) (m : Nat) (c : Coordinates) : Prop :=
  ∃ i b, AuthorizedAttempt v m i b ∧ b.coordinates = some c

/-- In every run whose checkpoints meet the condition, no two invoices are
authorized under one voucher. -/
theorem one_invoice_per_voucher {m m' : Nat} {c : Coordinates}
    (hs : Reachable (system P) oneIndexEntry s) (hm : m ≠ m') (h : AuthorizedUnder s.db.row m c) :
    ¬ AuthorizedUnder s.db.row m' c := by
  rintro ⟨j, d, hd, hdc⟩
  obtain ⟨i, b, hb, hbc⟩ := h
  have hplay : ∀ {m i b}, AuthorizedAttempt s.db.row m i b → InPlay AttemptState.isLive s i :=
    fun hb => .inl (by simp [hb.row, hb.authorized, AttemptState.isLive])
  have hdoc : b.document = d.document := reachable_playIndexed hs i j b d (hplay hb) (hplay hd)
    hb.row hd.row (by simp [hbc]) (hbc.trans hdc.symm)
  have hi := authorizedDocument_some hb.row hb.authorized
  have hj := authorizedDocument_some hd.row hd.authorized
  obtain rfl := reachable_indexed hs i j (by simp [hi]) (by rw [hi, hj, hdoc])
  have hbd : b = d := Option.some.inj (hb.row.symm.trans hd.row)
  exact hm (Option.some.inj (hb.move.symm.trans (hbd ▸ hd.move)))

namespace Office

theorem authorizedUnder {s : Sys (Fin 3)} {i m : Nat} {c : Coordinates}
    (h : attemptIs s i m .authorized = true)
    (hc : (s.db.row (.attempt i)).bind (fun b => b.coordinates) = some c) :
    AuthorizedUnder s.db.row m c := by
  obtain ⟨b, hb, hm, hst⟩ := attemptIs_spec h
  rw [hb, Option.bind_some] at hc
  exact ⟨i, b, ⟨hb, hm, hst⟩, hc⟩

end Office

theorem one_invoice_per_voucher_two :
    ∃ (s : Sys (Fin 3)) (c : Coordinates), Reachable (system Office.platform) oneIndexEntry s ∧
      AuthorizedUnder s.db.row 0 c ∧ Office.arcaState s 2 = .authorized ∧
      ¬ AuthorizedUnder s.db.row 2 c := by
  obtain ⟨s, hs, hst⟩ := Office.reaches oneIndexEntry
    (Office.posted 0 0 ++ [.start 2, .user 2 (.posting 2 none), .commit 2] ++
      Office.recorded 0 0 0 ++ Office.approved 0 0 "74000000000001" ++ Office.recorded 1 2 0 ++
      Office.approved 1 1 "74000000000002")
    (fun s => (Office.attemptIs s 0 0 .authorized && Office.arcaState s 2 == .authorized) &&
      (s.db.row (.attempt 0)).bind (fun b => b.coordinates) ==
        some ⟨⟨.testing, 20123456786, 1, 6⟩, 1⟩) (by decide +kernel)
  simp only [Bool.and_eq_true, beq_iff_eq] at hst
  have hunder := Office.authorizedUnder hst.1.1 hst.2
  exact ⟨s, _, hs, hunder, hst.1.2, one_invoice_per_voucher hs (by decide) hunder⟩

/-- Two companies share a CUIT. The request of the first invoice is lost, the
second company authorizes the number, and the cron gives its voucher to the
first invoice too. -/
theorem two_invoices_one_voucher :
    ∃ (s : Sys (Fin 3)) (c : Coordinates), Reachable (system Office.platform) Always s ∧
      Office.arcaState s 0 = .authorized ∧ Office.arcaState s 1 = .authorized ∧
      AuthorizedUnder s.db.row 0 c ∧ AuthorizedUnder s.db.row 1 c := by
  obtain ⟨s, hs, hst⟩ := Office.reaches Always
    (Office.posted 0 0 ++ Office.posted 1 1 ++ Office.recorded 0 0 0 ++ Office.lost 0 ++
      Office.recorded 1 1 0 ++ Office.approved 1 1 "74000000000001" ++
      Office.cron 0 (Office.voucherFound "74000000000001"))
    (fun s => (Office.arcaState s 0 == .authorized && Office.arcaState s 1 == .authorized) &&
      (Office.attemptIs s 0 0 .authorized && Office.attemptIs s 1 1 .authorized) &&
      ((s.db.row (.attempt 0)).bind (fun b => b.coordinates) ==
        some ⟨⟨.testing, 20123456786, 1, 6⟩, 1⟩ &&
      (s.db.row (.attempt 1)).bind (fun b => b.coordinates) ==
        some ⟨⟨.testing, 20123456786, 1, 6⟩, 1⟩)) (by decide +kernel)
  simp only [Bool.and_eq_true, beq_iff_eq] at hst
  obtain ⟨⟨hstates, h0, h1⟩, hc0, hc1⟩ := hst
  exact ⟨s, _, hs, hstates.1, hstates.2, Office.authorizedUnder h0 hc0, Office.authorizedUnder h1 hc1⟩

end ArcaEdi
