import ArcaEdi.Log

/-!
# One run at a time on each sequence

The lock key of a run is computed from what its caller sees, and the sequence
that it asks on and sends on from a later snapshot. When the two agree, no run
sends on a sequence that another run works on.
-/

namespace ArcaEdi

open Snapshot Runs

variable {W : Type} {P : Platform} {s s' : Sys W} {a : Act W} {w w' : W}

/-! ## Sequences -/

/-- The sequence that a run asks ARCA about and sends on. -/
def Stage.seq? : Stage → Option Sequence
  | .locked => none
  | .asking _ c => some c.seq
  | .prepared _ _ r | .recorded _ r | .sending _ _ r | .awaiting _ _ r | .answered _ _ r => some r.seq

def Job.seq? : Job → Option Sequence
  | .request _ _ stage => stage.seq?
  | .idle | .buttons _ | .cron _ | .isolated _ _ _ _ => none

/-- ARCA numbers the two together: it reads a CUIT as a number. -/
def Sequence.SameAtArca (q q' : Sequence) : Prop :=
  PyText.int? q.issuerCuit = PyText.int? q'.issuerCuit ∧ q.posNumber = q'.posNumber ∧
    q.documentTypeCode = q'.documentTypeCode

instance (q q' : Sequence) : Decidable (q.SameAtArca q') :=
  inferInstanceAs (Decidable (_ ∧ _ ∧ _))

/-- The transmission asks for a voucher of the sequence. -/
structure Sequence.Numbers (q : Sequence) (t : Transmission) : Prop where
  issuerCuit : PyText.int? q.issuerCuit = some t.cuit
  posNumber : q.posNumber = t.header.ptoVta
  documentTypeCode : q.documentTypeCode = t.header.cbteTipo

theorem requestKey_spec {v : View} {m key : Nat} (h : Sys.requestKey P v m = .ok key) :
    ∃ q, moveSequence v m = .ok q ∧ key = P.lockKey q := by
  unfold Sys.requestKey at h
  simp only [Raise.bind_eq_ok, Raise.pure_eq_ok] at h
  obtain ⟨-, -, q, hq, rfl⟩ := h
  exact ⟨q, hq, rfl⟩

theorem create_seq {now m i last : Nat} {t t' : DbTx} {c : Intent} {r : Request}
    (h : authorizeCreate P now t m i c last = .ok (t', r)) : r.seq = c.seq := by
  obtain ⟨header, detail, hreq, rfl, -⟩ := create_spec h
  obtain ⟨rfl, -⟩ := prepareRequest_spec hreq
  rfl

/-! ## The condition -/

/-- The invoice of a run that is about to take its first snapshot. -/
def Job.entering? : Job → Option Nat
  | .request m _ .locked => some m
  | _ => none

/-- The sequence of an invoice, where it has one. -/
def readSequence (v : View) (m : Nat) : Option Sequence := (moveSequence v m).toOption

/-- A run takes its first snapshot only while its caller sees the invoice on the
same sequence. -/
def readsItsSequence (s : Sys W) : Act W → Prop
  | .enter w => ∀ m ∈ (s.worker w).job.entering?, ∀ q ∈ readSequence s.db.row m,
    ∀ t ∈ (s.worker w).session, readSequence t.view m = some q
  | _ => True

/-- A run takes its first snapshot only while no other run spells the CUIT of the
sequence in other digits. -/
def spellsAlike (s : Sys W) : Act W → Prop
  | .enter w => ∀ m ∈ (s.worker w).job.entering?, ∀ q ∈ readSequence s.db.row m,
    ∀ w', ∀ q' ∈ (s.worker w').job.seq?, q'.SameAtArca q → q'.issuerCuit = q.issuerCuit
  | _ => True

/-- A run enters the sequence whose lock it took. -/
def entersItsSequence (s : Sys W) (a : Act W) : Prop := readsItsSequence s a ∧ spellsAlike s a

instance (s : Sys W) (a : Act W) : Decidable (readsItsSequence s a) :=
  match a with
  | .enter w => inferInstanceAs (Decidable (∀ m ∈ (s.worker w).job.entering?,
      ∀ q ∈ readSequence s.db.row m, ∀ t ∈ (s.worker w).session, readSequence t.view m = some q))
  | .tick | .start _ | .user _ _ | .commit _ | .rollback _ | .request _ _ | .lastAuthorized _ _
  | .checkpoint _ | .resume _ | .sendFails _ _ | .transmit _ | .answer _ _ _ | .reconcileMove _ _
  | .reconcileAttempts _ _ | .search _ _ | .isolate _ | .consult _ _ | .skip _ | .settle _ | .abort _
  | .kill _ | .ticket _ _ | .record _ _ | .refuse _ | .elsewhere _ _ => isTrue trivial

instance [Fintype W] (s : Sys W) (a : Act W) : Decidable (spellsAlike s a) :=
  match a with
  | .enter w => inferInstanceAs (Decidable (∀ m ∈ (s.worker w).job.entering?,
      ∀ q ∈ readSequence s.db.row m, ∀ w', ∀ q' ∈ (s.worker w').job.seq?,
        q'.SameAtArca q → q'.issuerCuit = q.issuerCuit))
  | .tick | .start _ | .user _ _ | .commit _ | .rollback _ | .request _ _ | .lastAuthorized _ _
  | .checkpoint _ | .resume _ | .sendFails _ _ | .transmit _ | .answer _ _ _ | .reconcileMove _ _
  | .reconcileAttempts _ _ | .search _ _ | .isolate _ | .consult _ _ | .skip _ | .settle _ | .abort _
  | .kill _ | .ticket _ _ | .record _ _ | .refuse _ | .elsewhere _ _ => isTrue trivial

instance [Fintype W] (s : Sys W) (a : Act W) : Decidable (entersItsSequence s a) :=
  inferInstanceAs (Decidable (_ ∧ _))

/-! ## Each run holds the lock of its sequence -/

/-- The lock of a run is that of the sequence that it works on. -/
structure Keyed (P : Platform) (s : Sys W) : Prop where
  locked : ∀ w m key, (s.worker w).job = .request m key .locked →
    ∃ t q, (s.worker w).session = some t ∧ readSequence t.view m = some q ∧ key = P.lockKey q
  working : ∀ w q, (s.worker w).job.seq? = some q → (s.worker w).job.key? = some (P.lockKey q)

variable [DecidableEq W]

theorem entering_step {m key : Nat} (h : Step P s a s')
    (hw : (s'.worker w).job = .request m key .locked) :
    s'.worker w = s.worker w ∨ ∃ t q, (s'.worker w).session = some t ∧
      readSequence t.view m = some q ∧ key = P.lockKey q := by
  rcases job_step h w with ⟨hne, -⟩ | ⟨-, hjob⟩
  · exact .inl (step_worker h hne)
  clear h
  rw [hw] at hjob
  generalize (s.worker w).job = j at hjob
  cases hjob with
  | request ht hk hl =>
    obtain ⟨q, hq, rfl⟩ := requestKey_spec hk
    exact .inr ⟨_, q, ht, by rw [readSequence, hq]; rfl, rfl⟩

/-- How a run comes to its sequence: it had it, or it enters under its lock. -/
inductive SeqStep (s : Sys W) (w : W) (j' : Job) (q : Sequence) : Act W → Prop
  | kept {a : Act W} (hq : (s.worker w).job.seq? = some q) (hk : j'.key? = (s.worker w).job.key?) :
      SeqStep s w j' q a
  | entered {m key : Nat} (hw : (s.worker w).job = .request m key .locked)
      (hq : readSequence s.db.row m = some q) (hk : j'.key? = some key) :
      SeqStep s w j' q (.enter w)

theorem seq_step {q : Sequence} (h : Step P s a s') (hq : (s'.worker w).job.seq? = some q) :
    SeqStep s w (s'.worker w).job q a := by
  rcases job_step h w with ⟨-, hsame⟩ | ⟨-, hjob⟩
  · rw [hsame] at hq ⊢
    exact .kept hq rfl
  clear h
  generalize hj' : (s'.worker w).job = j' at hq hjob ⊢
  generalize hj : (s.worker w).job = j at hjob
  cases hjob with
  | enter hstart =>
    cases hq
    obtain ⟨-, -, hseq, -⟩ := authorizeStart_spec hstart
    exact .entered hj (by rw [readSequence, hseq]; rfl) rfl
  | create hc =>
    cases hq
    exact .kept (by rw [hj]; exact congrArg some (create_seq hc).symm) (by rw [hj]; rfl)
  | checkpoint | resume | transmit => exact .kept (by rw [hj]; exact hq) (by rw [hj]; rfl)
  | outcome hf =>
    cases hq
    cases hf <;> exact .kept (by rw [hj]; rfl) (by rw [hj]; rfl)
  | _ => cases hq

theorem keyed_step (hk : Keyed P s) (hok : readsItsSequence s a) (h : Step P s a s') :
    Keyed P s' := by
  refine ⟨fun w m key hw => ?_, fun w q hq => ?_⟩
  · rcases entering_step h hw with hsame | hnew
    · rw [hsame] at hw ⊢
      exact hk.locked w m key hw
    · exact hnew
  · cases seq_step h hq with
    | kept hold hkey => exact hkey.trans (hk.working w q hold)
    | entered hw hread hkey =>
      obtain ⟨t, q', ht, hq', rfl⟩ := hk.locked w _ _ hw
      rw [hok _ (by rw [hw]; rfl) q hread t ht] at hq'
      cases hq'
      exact hkey

theorem reachable_keyed {ok : Sys W → Act W → Prop} (hok : ∀ s a, ok s a → readsItsSequence s a)
    (h : Reachable (system P) ok s) : Keyed P s := by
  refine reachable_inv (P := Keyed P) ?_
    (fun s a _ _ ha hk h => keyed_step hk (hok s a ha) (step_cases h)) h
  intro s hi
  refine ⟨fun w m key hw => ?_, fun w q hq => ?_⟩
  · rw [hi.workers w] at hw
    cases hw
  · rw [hi.workers w] at hq
    cases hq

/-! ## Mutual exclusion -/

/-- Runs that work on one sequence of ARCA spell its CUIT alike. -/
def Alike (s : Sys W) : Prop :=
  ∀ w w' q q', (s.worker w).job.seq? = some q → (s.worker w').job.seq? = some q' →
    q.SameAtArca q' → q = q'

omit [DecidableEq W] in
theorem sameAtArca_eq {q q' : Sequence} (h : q.SameAtArca q') (hc : q.issuerCuit = q'.issuerCuit) :
    q = q' := by
  obtain ⟨-, hp, ht⟩ := h
  cases q
  cases q'
  simp_all

omit [DecidableEq W] in
theorem sameAtArca_symm {q q' : Sequence} (h : q.SameAtArca q') : q'.SameAtArca q :=
  ⟨h.1.symm, h.2.1.symm, h.2.2.symm⟩

theorem alike_step (hal : Alike s) (hok : spellsAlike s a) (h : Step P s a s') : Alike s' := by
  have hnew : ∀ {w m q w' q'}, a = .enter w → (s.worker w).job.entering? = some m →
      readSequence s.db.row m = some q → (s.worker w').job.seq? = some q' → q'.SameAtArca q →
      q' = q := by
    rintro w m q w' q' rfl hm hq hq' hsame
    exact sameAtArca_eq hsame (hok m hm q hq w' q' hq' hsame)
  intro w w' q q' hq hq' hsame
  cases seq_step h hq with
  | kept hold hkey =>
    cases seq_step h hq' with
    | kept hold' hkey' => exact hal w w' q q' hold hold' hsame
    | entered hw' hread' hkey' => exact hnew rfl (by rw [hw']; rfl) hread' hold hsame
  | entered hw hread hkey =>
    cases seq_step h hq' with
    | kept hold' hkey' =>
      exact (hnew rfl (by rw [hw]; rfl) hread hold' (sameAtArca_symm hsame)).symm
    | entered hw' hread' hkey' =>
      rw [hw] at hw'
      cases hw'
      exact Option.some.inj (hread.symm.trans hread')

theorem reachable_alike {ok : Sys W → Act W → Prop} (hok : ∀ s a, ok s a → spellsAlike s a)
    (h : Reachable (system P) ok s) : Alike s := by
  refine reachable_inv ?_ (fun s a _ _ ha hal h => alike_step hal (hok s a ha) (step_cases h)) h
  intro s hi w w' q q' hq
  rw [hi.workers w] at hq
  cases hq

omit [DecidableEq W] in
theorem alone_on_sequence {q q' : Sequence} (hl : Locked s) (hk : Keyed P s) (hal : Alike s)
    (hw : (s.worker w).job.seq? = some q) (hw' : (s.worker w').job.seq? = some q')
    (h : q.SameAtArca q') : w = w' := by
  obtain rfl := hal w w' q q' hw hw' h
  exact locked_unique hl (hk.working w q hw) (hk.working w' q hw')

/-- In every run under the condition, each run holds the lock of the sequence
that it asks and sends on, and while it does, no other run sends on that
sequence. -/
theorem sequence_exclusion (hs : Reachable (system P) entersItsSequence s) :
    (∀ w q, (s.worker w).job.seq? = some q → s.locks (P.lockKey q) = some w) ∧
      ∀ w q w' s' t, (s.worker w).job.seq? = some q → step P s (.transmit w') = some s' →
        s'.arca.sent = s.arca.sent ++ [t] → q.Numbers t → w' = w := by
  have hlocked := reachable_locked hs
  have hkeyed := reachable_keyed (fun _ _ h => h.1) hs
  refine ⟨fun w q hq => hlocked w _ (hkeyed.working w q hq), fun w q w' s' t hq h ht hnum => ?_⟩
  obtain ⟨se, m, key, i, tx, r, env, cuit, hw', hcuit, hsent⟩ := transmit_spec h
  rw [hsent, List.append_cancel_left_eq, List.singleton_inj] at ht
  subst ht
  refine alone_on_sequence hlocked hkeyed (reachable_alike (fun _ _ h => h.2) hs)
    (by rw [hw']; rfl) hq ?_
  exact ⟨hcuit.trans hnum.issuerCuit.symm, hnum.posNumber.symm, hnum.documentTypeCode.symm⟩

namespace Office

def sequence (posNumber : Nat) : Sequence := ⟨"20123456786", posNumber, 6⟩

def worksOn (s : Sys (Fin 3)) (w : Fin 3) (posNumber : Nat) : Bool :=
  (s.worker w).job.seq? == some (sequence posNumber)

theorem worksOn_spec {s : Sys (Fin 3)} {w : Fin 3} {posNumber : Nat}
    (h : worksOn s w posNumber = true) : (s.worker w).job.seq? = some (sequence posNumber) :=
  beq_iff_eq.mp h

end Office

theorem sequence_exclusion_two :
    ∃ s : Sys (Fin 3), Reachable (system Office.platform) entersItsSequence s ∧
      s.locks (Office.platform.lockKey (Office.sequence 1)) = some 0 ∧
      s.locks (Office.platform.lockKey (Office.sequence 2)) = some 1 := by
  obtain ⟨s, hs, hst⟩ := Office.reaches entersItsSequence
    (Office.posted 0 0 ++ [.start 2, .user 2 (.posting 2 none), .commit 2] ++
      Office.recorded 0 0 0 ++ Office.recorded 1 2 0)
    (fun s => Office.worksOn s 0 1 && Office.worksOn s 1 2) (by decide +kernel)
  rw [Bool.and_eq_true] at hst
  have hlocks := (sequence_exclusion hs).1
  exact ⟨s, hs, hlocks 0 _ (Office.worksOn_spec hst.1), hlocks 1 _ (Office.worksOn_spec hst.2)⟩

/-- The caller of a run sees invoice 0 on point of sale 1. Its number is changed
to number 2 of point of sale 2 before the run takes its first snapshot, so the
run sends on point of sale 2 with the lock of point of sale 1, while another run
waits for its answer there. -/
theorem sends_without_the_lock :
    ∃ (s s' : Sys (Fin 3)) (q : Sequence) (t : Transmission),
      Reachable (system Office.platform) Always s ∧ (s.worker 1).job.seq? = some q ∧
      step Office.platform s (.transmit 0) = some s' ∧ s'.arca.sent = s.arca.sent ++ [t] ∧
      q.Numbers t := by
  obtain ⟨s, hs, hst⟩ := Office.reaches Always
    (Office.posted 0 0 ++ [.start 2, .user 2 (.posting 2 none), .commit 2] ++ [.start 0] ++
      Office.renumbered 0 2 2 ++ [.request 0 0] ++ Office.recorded 1 2 0 ++
      [.resume 1, .transmit 1, .record 0 "74000000000001", .enter 0,
        .lastAuthorized 0 (.response ⟨none, some 1⟩), .checkpoint 0, .resume 0])
    (fun s => (Office.worksOn s 1 2 && Office.worksOn s 0 2) &&
      (step Office.platform s (.transmit 0)).isSome) (by decide +kernel)
  simp only [Bool.and_eq_true] at hst
  obtain ⟨s', hs'⟩ := Option.isSome_iff_exists.mp hst.2
  obtain ⟨se, m, key, i, tx, r, env, cuit, hw, hcuit, hsent⟩ := transmit_spec hs'
  have hseq : r.seq = Office.sequence 2 := by
    have hjob := Office.worksOn_spec hst.1.2
    rw [hw] at hjob
    exact Option.some.inj hjob
  refine ⟨s, s', _, _, hs, Office.worksOn_spec hst.1.1, hs', hsent, ?_⟩
  rw [← hseq]
  exact ⟨hcuit, rfl, rfl⟩

end ArcaEdi
