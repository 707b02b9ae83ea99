import ArcaEdi.Writes

/-!
# Isolation

What REPEATABLE READ gives the module. Attempts are guarded by their invoice:
whoever writes an attempt writes its invoice too, so two transactions that
settle attempts of one invoice cannot both commit on the same snapshot.
-/

namespace ArcaEdi

open Snapshot

/-- The invoice of an attempt. -/
def guard : (k : Key) → Row k → Option Key
  | .attempt _, row => (row : Option Attempt).bind fun a => a.moveId.map .move
  | .move _, _ | .company _, _ | .certificate _, _ | .journal _, _ => none

theorem guard_attempt {i m : Nat} {a : Attempt} (h : a.moveId = some m) :
    guard (.attempt i) (some a) = some (.move m) := by
  simp [guard, h]

/-- `B` is a later state of the attempts in `A`: none is lost, what each records
stays, and none goes back to sent. -/
def Later (A B : View) : Prop :=
  ∀ i a, A (.attempt i) = some a →
    ∃ b, B (.attempt i) = some b ∧ b.toEvidence = a.toEvidence ∧ (b.state = .sent → a.state = .sent)

theorem later_refl (A : View) : Later A A := fun _ a h => ⟨a, h, rfl, id⟩

theorem later_trans {A B C : View} (h1 : Later A B) (h2 : Later B C) : Later A C := by
  intro i a ha
  obtain ⟨b, hb, hev, hst⟩ := h1 i a ha
  obtain ⟨c, hc, hev', hst'⟩ := h2 i b hb
  exact ⟨c, hc, hev'.trans hev, fun h => hst (hst' h)⟩

/-- Every attempt has an id from the sequence, and an invoice. -/
def Known (v : View) (nextAttempt : Nat) : Prop :=
  ∀ i a, v (.attempt i) = some a → i < nextAttempt ∧ a.moveId ≠ none

theorem known_mono {v : View} {n n' : Nat} (h : Known v n) (hn : n ≤ n') : Known v n' :=
  fun i a ha => ⟨Nat.lt_of_lt_of_le (h i a ha).1 hn, (h i a ha).2⟩

theorem known_fresh {v : View} {n : Nat} (h : Known v n) : v (.attempt n) = none := by
  by_contra hne
  obtain ⟨a, ha⟩ := Option.ne_none_iff_exists'.mp hne
  exact Nat.lt_irrefl _ (h n a ha).1

/-! ## One transaction -/

/-- An open transaction, against the database as it is now. -/
structure Isolated (db : Db) (nextAttempt : Nat) (t : DbTx) : Prop where
  follows : Follows guard t.snap db
  covers : Covers guard t
  grown : Later t.snap.row t.view
  since : Later t.snap.row db.row
  known : Known t.view nextAttempt

variable {db db' : Db} {n n' : Nat} {t t' : DbTx}

theorem isolated_start (h : Known db.row n) : Isolated db n (Tx.start db) :=
  ⟨follows_refl _, covers_start _, later_refl _, later_refl _, h⟩

theorem isolated_mono (h : Isolated db n t) (hf : Follows guard db db') (hl : Later db.row db'.row)
    (hn : n ≤ n') : Isolated db' n' t :=
  ⟨follows_trans h.follows hf, h.covers, h.grown, later_trans h.since hl, known_mono h.known hn⟩

theorem isolated_write {k : Key} {v : Row k} (h : Isolated db n t) (hk : ∀ i, k ≠ .attempt i) :
    Isolated db n (t.write k v) := by
  have hguard : ∀ v : Row k, guard k v = none := by
    cases k with
    | attempt i => exact absurd rfl (hk i)
    | move | company | certificate | journal => intro v; rfl
  have hview : ∀ i, (t.write k v).view (.attempt i) = t.view (.attempt i) :=
    fun i => write_view_ne t v (fun he => hk i he.symm)
  refine ⟨h.follows, covers_write h.covers ?_ ?_, ?_, h.since, ?_⟩
  · intro g hg
    rw [hguard] at hg
    cases hg
  · intro g hg
    rw [hguard] at hg
    cases hg
  · intro i a ha
    rw [hview]
    exact h.grown i a ha
  · intro i a ha
    rw [hview] at ha
    exact h.known i a ha

theorem covers_pairWrite {i m : Nat} {a : Attempt} {st : ArcaStatus} (hc : Covers guard t)
    (hm : a.moveId = some m)
    (hold : ∀ b, t.snap.row (.attempt i) = some b → b.moveId = some m) :
    Covers guard (pairWrite t i a m st) := by
  intro k hk g hg
  by_cases hmove : k = .move m
  · subst hmove
    simp [guard] at hg
  by_cases hatt : k = .attempt i
  · subst hatt
    have hgm : g = .move m := by
      rcases hg with hg | hg
      · rw [pairWrite_snap] at hg
        cases hrow : t.snap.row (.attempt i) with
        | none => simp [guard, hrow] at hg
        | some b =>
          rw [hrow, guard_attempt (hold b hrow)] at hg
          exact (Option.some.inj hg).symm
      · rw [pairWrite_attempt_self, guard_attempt hm] at hg
        exact (Option.some.inj hg).symm
    rw [hgm, pairWrite_dirty]
    exact List.mem_cons_self
  · have hview : (pairWrite t i a m st).view k = t.view k := by
      rw [pairWrite, write_view_ne _ _ hmove, write_view_ne _ _ hatt]
    rw [pairWrite_dirty, List.mem_cons, List.mem_cons] at hk
    rw [pairWrite_snap, hview] at hg
    have hd := hc k ((hk.resolve_left hmove).resolve_left hatt) g hg
    rw [pairWrite_dirty]
    exact List.mem_cons_of_mem _ (List.mem_cons_of_mem _ hd)

theorem row_moveId {v : View} {i m : Nat} {b : Attempt} (hb : v (.attempt i) = some b)
    (hm : b.moveId = some m) : ∀ a, v (.attempt i) = some a → a.moveId = some m := by
  intro a ha
  rw [hb] at ha
  cases ha
  exact hm

theorem isolated_pairWrite {i m : Nat} {a b : Attempt} {st : ArcaStatus} (h : Isolated db n t)
    (hview : t.view (.attempt i) = some a) (hm : a.moveId = some m)
    (hev : b.toEvidence = a.toEvidence) (hst : b.state ≠ .sent) :
    Isolated db n (pairWrite t i b m st) := by
  have hbm : b.moveId = some m := (congrArg Evidence.moveId hev).trans hm
  refine ⟨h.follows, covers_pairWrite h.covers hbm ?_, ?_, h.since, ?_⟩
  · intro c hc
    obtain ⟨a', ha', hev', -⟩ := h.grown i c hc
    rw [hview] at ha'
    cases ha'
    exact (congrArg Evidence.moveId hev').symm.trans hm
  · intro j c hc
    by_cases hj : j = i
    · subst hj
      obtain ⟨a', ha', hev', -⟩ := h.grown j c hc
      rw [hview] at ha'
      cases ha'
      exact ⟨b, pairWrite_attempt_self .., hev.trans hev', fun hs => absurd hs hst⟩
    · rw [pairWrite_snap] at hc
      rw [pairWrite_attempt_ne hj]
      exact h.grown j c hc
  · intro j c hc
    by_cases hj : j = i
    · subst hj
      rw [pairWrite_attempt_self] at hc
      cases hc
      exact ⟨(h.known j a hview).1, by simp [hbm]⟩
    · rw [pairWrite_attempt_ne hj] at hc
      exact h.known j c hc

theorem isolated_create {m : Nat} {a : Attempt} {st : ArcaStatus} (h : Isolated db n t)
    (hm : a.moveId = some m) : Isolated db (n + 1) (pairWrite t n a m st) := by
  have hview : t.view (.attempt n) = none := known_fresh h.known
  have hsnap : ∀ b, t.snap.row (.attempt n) ≠ some b := by
    intro b hb
    obtain ⟨a', ha', -⟩ := h.grown n b hb
    rw [hview] at ha'
    cases ha'
  refine ⟨h.follows, covers_pairWrite h.covers hm (fun b hb => absurd hb (hsnap b)), ?_, h.since, ?_⟩
  · intro j c hc
    have hj : j ≠ n := by
      rintro rfl
      exact hsnap c hc
    rw [pairWrite_attempt_ne hj]
    exact h.grown j c hc
  · intro j c hc
    by_cases hj : j = n
    · subst hj
      rw [pairWrite_attempt_self] at hc
      cases hc
      exact ⟨Nat.lt_succ_self _, by simp [hm]⟩
    · rw [pairWrite_attempt_ne hj] at hc
      have := h.known j c hc
      exact ⟨Nat.lt_succ_of_lt this.1, this.2⟩

theorem isolated_user {now : Nat} {D : Move → Prop} {K : Nat → Company → Prop} (h : Isolated db n t)
    (hu : UserWrites now D K t t') : Isolated db n t' := by
  induction hu with
  | refl => exact h
  | tail _ hu ih => cases hu <;> exact isolated_write ih (by simp)

theorem isolated_commit (h : Isolated db n t) (hk : Known db.row n) (hfit : t.fits db) :
    Follows guard db (db.apply t) ∧ Later db.row (db.apply t).row ∧ Known (db.apply t).row n := by
  refine ⟨follows_apply h.follows h.covers hfit, ?_, ?_⟩
  · intro i a ha
    rcases apply_row_fits h.follows hfit (.attempt i) with hsame | ⟨hsnap, hview⟩
    · exact ⟨a, hsame ▸ ha, rfl, id⟩
    · rw [hsnap] at ha
      rw [hview]
      exact h.grown i a ha
  · intro i a ha
    rcases apply_row db t (.attempt i) with hrow | hrow <;> rw [hrow] at ha
    · exact hk i a ha
    · exact h.known i a ha

/-! ## The attempt of a run -/

/-- The request is the one that the attempt records. -/
structure Describes (e : Evidence) (m : Nat) (r : Request) : Prop where
  move : e.moveId = some m
  certificate : e.certificateId = some r.certificateId
  issuerCuit : e.issuerCuit = r.issuerCuit
  posNumber : e.posNumber = r.header.ptoVta
  documentTypeCode : e.documentTypeCode = r.header.cbteTipo
  cbteDesde : e.documentNumber = r.detail.cbteDesde
  cbteHasta : e.documentNumber = r.detail.cbteHasta
  payload : e.requestPayload = r.detail

/-- The attempt of a request is there, and records it. -/
def Made (v : View) (i m : Nat) (r : Request) : Prop :=
  ∃ a : Attempt, v (.attempt i) = some a ∧ Describes a.toEvidence m r

theorem made_later {A B : View} {i m : Nat} {r : Request} (h : Made A i m r) (hl : Later A B) :
    Made B i m r := by
  obtain ⟨a, ha, hd⟩ := h
  obtain ⟨b, hb, hev, -⟩ := hl i a ha
  exact ⟨b, hb, hev ▸ hd⟩

def Clean (t : DbTx) : Prop := t.view = t.snap.row

/-- What a run knows at each stage. -/
def Stage.Sound (db : Db) (m : Nat) : Stage → Prop
  | .locked => True
  | .asking tx c => Clean tx ∧ ∃ now, authorizeStart now tx.view m = .ok c
  | .prepared tx i r | .answered tx i r => Made tx.view i m r
  | .recorded i r => Made db.row i m r
  | .sending tx i r | .awaiting tx i r => Clean tx ∧ Made tx.view i m r

def Job.Sound (db : Db) : Job → Prop
  | .request m _ stage => stage.Sound db m
  | _ => True

/-- The invariant of every run: isolation, and each run's hold on its attempt. -/
structure Sound {W : Type} (s : Sys W) : Prop where
  known : Known s.db.row s.nextAttempt
  isolated : ∀ t, Live s t → Isolated s.db s.nextAttempt t
  jobs : ∀ w, (s.worker w).job.Sound s.db

theorem job_sound_later {db db' : Db} {job : Job} (h : job.Sound db)
    (hl : Later db.row db'.row) : job.Sound db' := by
  match job, h with
  | .request m key (.recorded i r), h => exact made_later h hl
  | .request m key .locked, h => exact h
  | .request m key (.asking tx c), h => exact h
  | .request m key (.prepared tx i r), h => exact h
  | .request m key (.sending tx i r), h => exact h
  | .request m key (.awaiting tx i r), h => exact h
  | .request m key (.answered tx i r), h => exact h
  | .idle, h | .buttons _, h | .cron _, h | .isolated _ _ _ _, h => exact h

end ArcaEdi
