import Mathlib.Data.Fintype.Basic
import ArcaEdi.Documents

/-!
# Recording a CAE

The write of `_mark_authorized` comes after the voucher exists. Whether the unique
index of authorized documents can refuse it then.
-/

namespace ArcaEdi

open Snapshot Runs

variable {W : Type} {P : Platform} {s s' : Sys W} {a : Act W} {w : W}

/-! ## Documents in play -/

variable [DecidableEq W]

/-- At the first checkpoint of a run, no attempt in play is of the same document. -/
def documentFree (s : Sys W) : Act W → Prop
  | .checkpoint w => ∀ p ∈ (s.worker w).job.prepared?, ∀ b ∈ p.1.view (.attempt p.2),
    ∀ j < s.nextAttempt, InPlay AttemptState.isLive s j → ∀ c ∈ s.db.row (.attempt j),
      b.document ≠ c.document
  | _ => True

instance [Fintype W] (s : Sys W) (a : Act W) : Decidable (documentFree s a) :=
  match a with
  | .checkpoint w => inferInstanceAs (Decidable (∀ p ∈ (s.worker w).job.prepared?,
      ∀ b ∈ p.1.view (.attempt p.2), ∀ j < s.nextAttempt, InPlay AttemptState.isLive s j →
        ∀ c ∈ s.db.row (.attempt j), b.document ≠ c.document))
  | .tick | .start _ | .user _ _ | .commit _ | .rollback _ | .request _ _ | .enter _
  | .lastAuthorized _ _ | .resume _ | .sendFails _ _ | .transmit _ | .answer _ _ _
  | .reconcileMove _ _ | .reconcileAttempts _ _ | .search _ _ | .isolate _ | .consult _ _ | .skip _
  | .settle _ | .abort _ | .kill _ | .ticket _ _ | .record _ _ | .refuse _ | .elsewhere _ _ =>
    isTrue trivial

/-- No two attempts in play are of one document. -/
def PlayDistinct (s : Sys W) : Prop :=
  ∀ i j b c, InPlay AttemptState.isLive s i → InPlay AttemptState.isLive s j →
    s.db.row (.attempt i) = some b → s.db.row (.attempt j) = some c → b.document = c.document → i = j

theorem playDistinct_step (hs : Sound s) (hsc : Scoped s) (hcom : Committed s)
    (hok : documentFree s a) (hp : PlayDistinct s) (h : Step P s a s') : PlayDistinct s' := by
  have hnew : ∀ {w m key t r i j b c}, (s.worker w).job = .request m key (.prepared t i r) →
      a = .checkpoint w → t.view (.attempt i) = some b → InPlay AttemptState.isLive s j →
      s.db.row (.attempt j) = some c → b.document ≠ c.document := by
    rintro w m key t r i j b c hw rfl hb hj hc
    exact hok (t, i) (by rw [hw]; rfl) b hb j (hs.known j c hc).1 hj c hc
  intro i j b c hi hj hb hc hdoc
  cases play_step isLive_of_isOpen hs hsc hcom h hi hb with
  | kept hpi hbi hbev =>
    rw [hbev] at hdoc
    cases play_step isLive_of_isOpen hs hsc hcom h hj hc with
    | kept hpj hcj hcev => exact hp i j _ _ hpi hpj hbi hcj (hcev ▸ hdoc)
    | created hw hcj hcev => exact absurd (hcev ▸ hdoc).symm (hnew hw rfl hcj hpi hbi)
  | created hw hbi hbev =>
    rw [hbev] at hdoc
    cases play_step isLive_of_isOpen hs hsc hcom h hj hc with
    | kept hpj hcj hcev => exact absurd (hcev ▸ hdoc) (hnew hw rfl hbi hpj hcj)
    | created hw' hcj hcev =>
      rw [hw] at hw'
      cases hw'
      rfl

theorem reachable_playDistinct (h : Reachable (system P) documentFree s) : PlayDistinct s := by
  refine reachable_inv ?_ ?_ h
  · intro s hi i j b c _ _ hb
    rw [hi.attempts i] at hb
    cases hb
  · intro s a s' hr hok hp h
    exact playDistinct_step (reachable_sound hr) (reachable_scoped hr) (reachable_committed hr) hok hp
      (step_cases h)

/-! ## What a commit records -/

def PreparedSent (s : Sys W) : Prop :=
  ∀ w t i, (s.worker w).job.prepared? = some (t, i) →
    ∃ b : Attempt, t.view (.attempt i) = some b ∧ b.state = .sent

theorem preparedSent_step (hp : PreparedSent s) (h : Step P s a s') : PreparedSent s' := by
  intro w t i hprepared
  rcases job_step h w with ⟨-, hsame⟩ | ⟨-, hjob⟩
  · exact hp w t i (hsame ▸ hprepared)
  clear h
  generalize (s'.worker w).job = j' at hprepared hjob
  generalize (s.worker w).job = j at hjob
  cases hjob with
  | create h =>
    cases hprepared
    obtain ⟨header, detail, -, -, rfl⟩ := create_spec h
    exact ⟨_, pairWrite_attempt_self .., rfl⟩
  | _ => cases hprepared

theorem reachable_preparedSent {ok : Sys W → Act W → Prop} (h : Reachable (system P) ok s) :
    PreparedSent s := by
  refine reachable_inv ?_ (fun _ _ _ _ _ hp h => preparedSent_step hp (step_cases h)) h
  intro s hi w t i hw
  rw [hi.workers w] at hw
  cases hw

omit [DecidableEq W] in
theorem authorized_inPlay {t : DbTx} {i : Nat} {b : Attempt} (hs : Sound s) (hsc : Scoped s)
    (hcom : Committed s) (hsent : PreparedSent s) (ht : Commits s a t) (hfit : t.fits s.db)
    (hb : (s.db.apply t).row (.attempt i) = some b) (hst : b.state = .authorized) :
    ∃ c : Attempt, s.db.row (.attempt i) = some c ∧ b.toEvidence = c.toEvidence ∧
      InPlay AttemptState.isLive s i := by
  obtain ⟨-, hlater, -⟩ := isolated_commit (ht.isolated_tx hs) hs.known hfit
  have hevidence : ∀ c : Attempt, s.db.row (.attempt i) = some c → b.toEvidence = c.toEvidence := by
    intro c hc
    obtain ⟨b', hb', hev, -⟩ := hlater i c hc
    rw [hb] at hb'
    cases hb'
    exact hev
  have hchange : AttemptChange s { s with db := s.db.apply t } i a :=
    commit_changes hs hsc ht hfit rfl i
  cases hchange with
  | same hsame =>
    have hrow : s.db.row (.attempt i) = some b := hsame.symm.trans hb
    exact ⟨b, hrow, rfl, .inl (by simp [hrow, AttemptState.isLive, hst])⟩
  | session hw hold hnew hsnap hview hopen | isolated hw hold hnew hsnap hview hopen =>
    exact ⟨_, hold, hevidence _ hold, .inl (by simp [hold, isLive_of_isOpen _ hopen])⟩
  | @own w se m key t' r hw hnew =>
    have hrunning : (s.worker w).job.running? = some i := by
      rw [hw]
      rfl
    obtain ⟨c, hc⟩ := hcom w i hrunning
    exact ⟨c, hc, hevidence c hc, .inr ⟨w, hrunning⟩⟩
  | @created w se m key t' r hw hnew =>
    obtain ⟨b', hb', hst'⟩ := hsent w t' i (by rw [hw]; rfl)
    have hbb : some b = some b' := hb.symm.trans (hnew.trans hb')
    cases hbb
    rw [hst] at hst'
    cases hst'

/-! ## The index -/

omit [DecidableEq W] in
/-- The index refuses no commit: what the snapshots let through is committed. -/
def NeverRefused (s : Sys W) : Prop :=
  ∀ a t db, Commits s a t → t.commit s.db = some db → s.commitTx t = some db

/-- In every run whose checkpoints meet the condition, no commit is refused by the
unique index, so whatever CAE was given is recorded. -/
theorem cae_always_recorded (hs : Reachable (system P) documentFree s) : NeverRefused s := by
  intro a t db ht hcommit
  obtain ⟨hfit, rfl⟩ := commit_eq_some.mp hcommit
  have hauthorized : ∀ i d, authorizedDocument (s.db.apply t).row i = some d →
      ∃ c : Attempt, s.db.row (.attempt i) = some c ∧ c.document = d ∧
        InPlay AttemptState.isLive s i := by
    intro i d hd
    obtain ⟨b, hb, hdoc⟩ := Option.bind_eq_some_iff.mp hd
    split at hdoc
    · next hst =>
      cases hdoc
      obtain ⟨c, hc, hev, hplay⟩ := authorized_inPlay (reachable_sound hs) (reachable_scoped hs)
        (reachable_committed hs) (reachable_preparedSent hs) ht hfit hb hst
      exact ⟨c, hc, by rw [hev], hplay⟩
    · cases hdoc
  have hunique : uniqueAuthorized (s.db.apply t).row s.nextAttempt := by
    intro i _ j _ hne heq
    obtain ⟨d, hd⟩ := Option.ne_none_iff_exists'.mp hne
    obtain ⟨b, hb, hbd, hbplay⟩ := hauthorized i d hd
    obtain ⟨c, hc, hcd, hcplay⟩ := hauthorized j d (heq ▸ hd)
    exact reachable_playDistinct hs i j b c hbplay hcplay hb hc (hbd.trans hcd.symm)
  simp [Sys.commitTx, hcommit, hunique]

namespace Office

def answeredTx (s : Sys (Fin 3)) (w : Fin 3) : Option DbTx :=
  match s.worker w with
  | ⟨_, .request _ _ (.answered t _ _)⟩ => some t
  | _ => none

theorem answeredTx_commits {s : Sys (Fin 3)} {w : Fin 3} {t : DbTx} (h : answeredTx s w = some t) :
    Commits s (.settle w) t := by
  unfold answeredTx at h
  split at h
  · next hw =>
    cases h
    exact .settle hw
  · cases h

/-- The transaction authorizes the attempt under the CAE that ARCA gave for it. -/
def recordsVoucher (s : Sys (Fin 3)) (t : DbTx) (i : Nat) : Bool :=
  (t.view (.attempt i)).any fun b => b.state == .authorized &&
    (b.coordinates.bind s.arca.voucher).any fun v => b.cae == some v.cae

/-- Up to the answer, from the second snapshot on. -/
def answered (w : Fin 3) (n : Nat) (cae : String) : List (Act (Fin 3)) :=
  [.resume w, .transmit w, .record n cae, .answer w (approval cae) 900]

/-- Company 0 has a second certificate, for production. -/
def migratingRows : View
  | .certificate 1 =>
    { name := "arca", companyId := 0, holderCuit := "20-12345678-6", environment := .production }
  | k => rows k

def migrating : Sys (Fin 3) := { initial with db := ⟨migratingRows, fun _ => 0⟩ }

theorem migrating_initial : Initial migrating := by
  refine ⟨initial_initial.moves, fun _ => rfl, ?_, rfl, initial_initial.vouchers, fun _ => rfl,
    fun _ => rfl⟩
  intro k
  match k with
  | 0 | 1 | _ + 2 => rfl

/-- Company 0 moves to production, and an invoice of another journal of the point of
sale has number 1. -/
def migrated (w : Fin 3) : List (Act (Fin 3)) :=
  [.start w, .user w (.generateKeyAndCsr 1 true ⟨8⟩),
    .user w (.processCertificate 1 (some ⟨8, none, 0, 1000000⟩)),
    .user w (.writeCompany 0 ⟨"Empresa", some "20-12345678-6", some 1⟩),
    .user w (.writeJournal 3 ⟨true, 1⟩), .user w (.edit 3 { form 1 1 with journalId := 3 }),
    .user w (.posting 3 none), .commit w]

end Office

theorem cae_always_recorded_answered :
    ∃ (s : Sys (Fin 3)) (t : DbTx), Reachable (system Office.platform) documentFree s ∧
      Commits s (.settle 0) t ∧ Office.recordsVoucher s t 0 = true ∧ ∃ db, s.commitTx t = some db := by
  obtain ⟨s, hs, hst⟩ := Office.reaches documentFree
    (Office.posted 0 0 ++ Office.recorded 0 0 0 ++ Office.answered 0 0 "74000000000001")
    (fun s => (Office.answeredTx s 0).any fun t =>
      Office.recordsVoucher s t 0 && (t.commit s.db).isSome) (by decide +kernel)
  obtain ⟨t, ht, hrecords⟩ := (Option.any_eq_true _ _).mp hst
  rw [Bool.and_eq_true] at hrecords
  obtain ⟨db, hdb⟩ := Option.isSome_iff_exists.mp hrecords.2
  have hcommits := Office.answeredTx_commits ht
  exact ⟨s, t, hs, hcommits, hrecords.1, db, cae_always_recorded hs _ t db hcommits hdb⟩

/-- Number 1 was authorized in testing. In production ARCA approves number 1 again, and
the index refuses to record it. -/
theorem production_cae_refused :
    ∃ (s : Sys (Fin 3)) (t : DbTx), Reachable (system Office.platform) Always s ∧
      Commits s (.settle 1) t ∧ Office.recordsVoucher s t 1 = true ∧
      (∃ db, t.commit s.db = some db) ∧ s.commitTx t = none := by
  have hrun : (run (system Office.platform) Always Office.migrating
      (Office.posted 0 0 ++ Office.recorded 0 0 0 ++ Office.approved 0 0 "74000000000001" ++
        Office.migrated 2 ++ Office.recorded 1 3 0 ++ Office.answered 1 1 "75000000000001")).any
      (fun s => (Office.answeredTx s 1).any fun t =>
        Office.recordsVoucher s t 1 && (t.commit s.db).isSome && (s.commitTx t).isNone) = true := by
    decide +kernel
  obtain ⟨s, hs, hst⟩ := run_reaches Office.migrating_initial hrun
  obtain ⟨t, ht, hrecords⟩ := (Option.any_eq_true _ _).mp hst
  simp only [Bool.and_eq_true, Option.isSome_iff_exists, Option.isNone_iff_eq_none] at hrecords
  obtain ⟨⟨hvoucher, hdb⟩, hnone⟩ := hrecords
  exact ⟨s, t, hs, Office.answeredTx_commits ht, hvoucher, hdb, hnone⟩

end ArcaEdi
