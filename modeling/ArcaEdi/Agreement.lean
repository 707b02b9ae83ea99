import ArcaEdi.Invariant

/-!
# The invoice and its attempts agree

What the ARCA state of an invoice says of its attempts, in the database and in
every open transaction.
-/

namespace ArcaEdi

open Snapshot Runs

/-! ## The invariant of one invoice -/

/-- Attempt `i` of invoice `m` has produced a voucher, or may have. -/
structure LiveAttempt (v : View) (m i : Nat) (a : Attempt) : Prop where
  row : v (.attempt i) = some a
  move : a.moveId = some m
  live : a.state.isLive = true

/-- The state of the one live attempt that goes with a state of the invoice. -/
def expected : ArcaState → Option AttemptState
  | .processing => some .sent
  | .uncertain => some .uncertain
  | .authorized => some .authorized
  | .notRequired | .pending | .rejected => none

/-- The invoice says what its one live attempt says. -/
structure Agree (v : View) (m : Nat) : Prop where
  state : ∀ i a, LiveAttempt v m i a → expected (v (.move m) : Move).arcaState = some a.state
  cae : ∀ i a, LiveAttempt v m i a → a.state = .authorized →
    (v (.move m) : Move).cae = a.cae ∧ (v (.move m) : Move).caeDueDate = a.caeDueDate
  unique : ∀ i j a b, LiveAttempt v m i a → LiveAttempt v m j b → i = j
  found : expected (v (.move m) : Move).arcaState ≠ none → ∃ i a, LiveAttempt v m i a

theorem agree_local : Local Agree := by
  intro A B m hAB hA
  have hback : ∀ i a, LiveAttempt B m i a → LiveAttempt A m i a := by
    intro i a ha
    refine ⟨?_, ha.move, ha.live⟩
    rw [hAB.rows (.attempt i) (.inr (by rw [ha.row]; exact guard_attempt ha.move)), ha.row]
  refine ⟨?_, ?_, ?_, ?_⟩
  · intro i a ha
    rw [← hAB.root]
    exact hA.state i a (hback i a ha)
  · intro i a ha
    rw [← hAB.root]
    exact hA.cae i a (hback i a ha)
  · intro i j a b ha hb
    exact hA.unique i j a b (hback i a ha) (hback j b hb)
  · intro hne
    rw [← hAB.root] at hne
    obtain ⟨i, a, ha⟩ := hA.found hne
    refine ⟨i, a, ?_, ha.move, ha.live⟩
    rw [← hAB.rows (.attempt i) (.inl (by rw [ha.row]; exact guard_attempt ha.move)), ha.row]

/-! ## Writes -/

/-- The two states that one write leaves go together. -/
structure Paired (b : Attempt) (st : ArcaStatus) : Prop where
  state : b.state.isLive = true → expected st.arcaState = some b.state
  cae : b.state = .authorized → st.cae = b.cae ∧ st.caeDueDate = b.caeDueDate
  closed : expected st.arcaState ≠ none → b.state.isLive = true

theorem Outcome.paired {b : Attempt} {st : ArcaStatus} (h : Outcome b st) : Paired b st := by
  cases h with
  | uncertain ha hst =>
    exact ⟨by simp [ha, hst, expected], by simp [ha],
      by simp [ha, AttemptState.isLive, AttemptState.isOpen]⟩
  | closed ha hst =>
    have hnone : expected st.arcaState = none := by
      rcases hst with hst | hst <;> simp [hst, expected]
    refine ⟨?_, ?_, fun h => absurd hnone h⟩ <;>
    · intro hb
      rcases ha with ha | ha <;> simp [ha, AttemptState.isLive, AttemptState.isOpen] at hb
  | authorized ha hst hcae hdue =>
    exact ⟨by simp [ha, hst, expected], fun _ => ⟨hcae, hdue⟩, by simp [ha, AttemptState.isLive]⟩

theorem agree_pairWrite {t : DbTx} {i m : Nat} {b : Attempt} {st : ArcaStatus}
    (hb : b.moveId = some m) (hpair : Paired b st)
    (hothers : ∀ j a, LiveAttempt t.view m j a → j = i) :
    Agree (pairWrite t i b m st).view m := by
  have honly : ∀ j a, LiveAttempt (pairWrite t i b m st).view m j a → j = i ∧ a = b := by
    intro j a ha
    by_cases hj : j = i
    · subst hj
      have hrow := ha.row
      rw [pairWrite_attempt_self] at hrow
      exact ⟨rfl, (Option.some.inj hrow).symm⟩
    · have hrow := ha.row
      rw [pairWrite_attempt_ne hj] at hrow
      exact absurd (hothers j a ⟨hrow, ha.move, ha.live⟩) hj
  refine ⟨?_, ?_, ?_, ?_⟩
  · intro j a ha
    obtain ⟨-, rfl⟩ := honly j a ha
    rw [pairWrite_move_self]
    exact hpair.state ha.live
  · intro j a ha hst
    obtain ⟨-, rfl⟩ := honly j a ha
    rw [pairWrite_move_self]
    exact hpair.cae hst
  · intro j j' a a' ha ha'
    rw [(honly j a ha).1, (honly j' a' ha').1]
  · intro hne
    rw [pairWrite_move_self] at hne
    exact ⟨i, b, pairWrite_attempt_self .., hb, hpair.closed hne⟩

theorem agree_pairWrite_all {t : DbTx} {i m : Nat} {b : Attempt} {st : ArcaStatus}
    (h : ∀ m, Agree t.view m) (hold : ∀ a, t.view (.attempt i) = some a → a.moveId = some m)
    (hb : b.moveId = some m) (hpair : Paired b st)
    (hothers : ∀ j a, LiveAttempt t.view m j a → j = i) :
    ∀ m', Agree (pairWrite t i b m st).view m' := by
  intro m'
  by_cases hm : m' = m
  · subst hm
    exact agree_pairWrite hb hpair hothers
  · exact agree_local _ _ m' (sameGroup_pairWrite hm hold hb) (h m')

theorem MoveWrite.status {D : Move → Prop} {old new : Move} (h : MoveWrite D old new) :
    expected new.arcaState = expected old.arcaState ∧ new.cae = old.cae ∧
      new.caeDueDate = old.caeDueDate := by
  cases h with
  | mark h => exact ⟨by simp [expected, h], rfl, rfl⟩
  | post | draft | edit => exact ⟨rfl, rfl, rfl⟩

theorem agree_write_move {D : Move → Prop} {t : DbTx} {m : Nat} {v : Move} (h : Agree t.view m)
    (hv : MoveWrite D (t.view (.move m)) v) : Agree (t.write (.move m) v).view m := by
  obtain ⟨hst, hcae, hdue⟩ := hv.status
  have hrow : ∀ i, (t.write (.move m) v).view (.attempt i) = t.view (.attempt i) :=
    fun i => write_view_ne _ _ (by simp)
  have hlive : ∀ i a, LiveAttempt (t.write (.move m) v).view m i a → LiveAttempt t.view m i a :=
    fun i a ha => ⟨(hrow i).symm.trans ha.row, ha.move, ha.live⟩
  refine ⟨?_, ?_, ?_, ?_⟩
  · intro i a ha
    rw [write_view_self, hst]
    exact h.state i a (hlive i a ha)
  · intro i a ha
    rw [write_view_self, hcae, hdue]
    exact h.cae i a (hlive i a ha)
  · intro i j a b ha hb
    exact h.unique i j a b (hlive i a ha) (hlive j b hb)
  · intro hne
    rw [write_view_self, hst] at hne
    obtain ⟨i, a, ha⟩ := h.found hne
    exact ⟨i, a, (hrow i).trans ha.row, ha.move, ha.live⟩

theorem agree_user {now : Nat} {D : Move → Prop}
    {K : Nat → Company → Prop} {t t' : DbTx} (h : ∀ m, Agree t.view m)
    (hu : UserWrites now D K t t') : ∀ m, Agree t'.view m := by
  induction hu with
  | refl => exact h
  | tail _ hu ih =>
    intro m
    cases hu with
    | company | journal | certificate =>
      exact agree_local _ _ m (sameGroup_write (by simp) (by simp)) (ih m)
    | @move m' v hv =>
      by_cases hm : m = m'
      · subst hm
        exact agree_write_move (ih m) hv
      · exact agree_local _ _ m (sameGroup_write (by simpa using Ne.symm hm) (by simp)) (ih m)

/-! ## Requests in flight -/

/-- The job has its second snapshot, and has not written its outcome. -/
inductive Job.InFlight : Job → Nat → Nat → DbTx → Prop
  | sending {m key i : Nat} {t : DbTx} {r : Request} :
      InFlight (.request m key (.sending t i r)) m i t
  | awaiting {m key i : Nat} {t : DbTx} {r : Request} :
      InFlight (.request m key (.awaiting t i r)) m i t

/-- The invoice and the attempt of a run that is about to take its second snapshot. -/
def Job.resuming? : Job → Option (Nat × Nat)
  | .request m _ (.recorded i _) => some (m, i)
  | _ => none

theorem resuming_spec {job : Job} {m i : Nat} (h : job.resuming? = some (m, i)) :
    ∃ key r, job = .request m key (.recorded i r) := by
  unfold Job.resuming? at h
  split at h
  · cases h
    exact ⟨_, _, rfl⟩
  · cases h

variable {W : Type} {s s' : Sys W} {a : Act W} {w : W}

theorem resuming_made {m i : Nat} (hs : Sound s) (h : (s.worker w).job.resuming? = some (m, i)) :
    ∃ r, Made s.db.row i m r := by
  obtain ⟨key, r, hw⟩ := resuming_spec h
  have hjob := hs.jobs w
  rw [hw] at hjob
  exact ⟨r, hjob⟩

theorem Finishes.inFlight {t : DbTx} {m key i : Nat} {r : Request} {stage : Stage}
    {result : Except Exn CaeResult} (h : Finishes s w t i r a stage result) :
    (Job.request m key stage).InFlight m i t := by
  cases h
  · exact .sending
  · exact .awaiting

variable [DecidableEq W] {P : Platform}

theorem inFlight_step {m i : Nat} {t : DbTx} (h : Step P s a s')
    (hf : (s'.worker w).job.InFlight m i t) :
    (s.worker w).job.InFlight m i t ∨
      a = .resume w ∧ t = Tx.start s.db ∧ (s.worker w).job.resuming? = some (m, i) := by
  rcases job_step h w with ⟨-, hsame⟩ | ⟨-, hjob⟩
  · rw [hsame] at hf
    exact .inl hf
  clear h
  generalize (s'.worker w).job = j' at hf hjob
  generalize (s.worker w).job = j at hjob ⊢
  cases hjob with
  | resume =>
    cases hf
    exact .inr ⟨rfl, rfl, rfl⟩
  | transmit =>
    cases hf
    exact .inl .sending
  | _ => cases hf

/-! ## The invariant of all views -/

def Alone (v : View) (m i : Nat) : Prop := ∀ j b, LiveAttempt v m j b → j = i

def othersLive (v : View) (nextAttempt m i : Nat) : Bool :=
  (attemptIds nextAttempt).any fun j =>
    j != i && (v (.attempt j)).any fun a => a.moveId == some m && a.state.isLive

/-- A run takes its second snapshot only while no other attempt of its invoice is live. -/
def rejoinsAlone (s : Sys W) : Act W → Bool
  | .resume w => (s.worker w).job.resuming?.all fun p =>
    !othersLive s.db.row s.nextAttempt p.1 p.2
  | _ => true

theorem alone_of_othersLive {v : View} {n m i : Nat} (hk : Known v n)
    (h : othersLive v n m i = false) : Alone v m i := by
  intro j b hb
  by_contra hji
  have hlt := (hk j b hb.row).1
  rw [othersLive, List.any_eq_false] at h
  refine h j (List.mem_range.mpr hlt) ?_
  simp [hji, hb.row, hb.move, hb.live]

omit [DecidableEq W] in
theorem not_othersLive {m i n : Nat} {v : View} {b : Attempt} (h : Agree v m)
    (hb : LiveAttempt v m i b) : othersLive v n m i = false := by
  rw [othersLive, List.any_eq_false]
  intro j _ hj
  obtain ⟨hne, hc⟩ := Bool.and_eq_true_iff.mp hj
  obtain ⟨c, hc, hlive⟩ := (Option.any_eq_true _ _).mp hc
  obtain ⟨hm, hl⟩ := Bool.and_eq_true_iff.mp hlive
  exact bne_iff_ne.mp hne (h.unique j i c b ⟨hc, beq_iff_eq.mp hm, hl⟩ hb)

/-- Invoices agree with their attempts, in all that is committed or seen. -/
structure Agreed (s : Sys W) : Prop where
  db : ∀ m, Agree s.db.row m
  views : ∀ t, Live s t → ∀ m, Agree t.view m
  alone : ∀ w m i t, (s.worker w).job.InFlight m i t → Alone t.view m i

theorem agree_ready {v : View} {m : Nat} (h : Agree v m) (hr : checkReady v m = .ok ()) (i : Nat)
    (b : Attempt) : ¬ LiveAttempt v m i b := by
  intro hb
  have hst := h.state i b hb
  rcases (checkReady_spec hr).2 with hp | hp <;> simp [hp, expected] at hst

omit [DecidableEq W] in
theorem asking_ready {t : DbTx} {se : Option DbTx} {m key : Nat} {c : Intent} (hs : Sound s)
    (hw : s.worker w = ⟨se, .request m key (.asking t c)⟩) : checkReady t.view m = .ok () := by
  obtain ⟨-, now, hstart⟩ := job_sound hs hw
  exact (authorizeStart_spec hstart).1

omit [DecidableEq W] in
theorem asking_fresh {t : DbTx} {se : Option DbTx} {m key : Nat} {c : Intent} (hs : Sound s)
    (hw : s.worker w = ⟨se, .request m key (.asking t c)⟩) :
    t.view (.attempt s.nextAttempt) = none :=
  known_fresh (hs.isolated t (live_work hw rfl)).known

omit [DecidableEq W] in
theorem agree_writes {t t' : DbTx} (hs : Sound s) (hag : Agreed s) (hw : Writes P s a t t') :
    ∀ m, Agree t'.view m := by
  have ht := hag.views t hw.live
  cases hw with
  | user hw h => exact agree_user ht (user_writes h)
  | @create w reply se m key last t t' c r hw h =>
    obtain ⟨header, detail, -, -, rfl⟩ := create_spec h
    refine agree_pairWrite_all ht (fun b hb => by rw [asking_fresh hs hw] at hb; cases hb) rfl ?_ ?_
    · exact ⟨fun _ => rfl, fun h => by simp [newAttempt] at h, fun _ => rfl⟩
    · exact fun j b hb => absurd hb (agree_ready (ht m) (asking_ready hs hw) j b)
  | @outcome a w se m key i durationMs t t' r stage result hw hf h =>
    obtain ⟨-, b, hb, hd⟩ := made_of_finishes hs hw hf
    obtain ⟨b', st, rfl, hev, hout, -⟩ := outcome_spec hb h
    have hmove : b'.moveId = some m := (congrArg Evidence.moveId hev).trans hd.move
    have halone : Alone t.view m i := hag.alone w m i t (by rw [hw]; exact hf.inFlight)
    exact agree_pairWrite_all ht (row_moveId hb hd.move) hmove hout.paired halone
  | @reconcile w t t' i reply hw h =>
    obtain ⟨b, m, k, env, cuit, found, b', st, hr⟩ :=
      reconcile_spec (attempt_has_move hs (live_of_target hw)) h
    obtain rfl := hr.write
    have hmove : b'.moveId = some m := (congrArg Evidence.moveId hr.evidence).trans hr.move
    have hlive : LiveAttempt t.view m i b :=
      ⟨hr.view, hr.move, by simp [AttemptState.isLive, hr.isOpen]⟩
    have halone : Alone t.view m i := fun j c hc => (ht m).unique j i c b hc hlive
    exact agree_pairWrite_all ht (row_moveId hr.view hr.move) hmove hr.outcome.paired halone

theorem agreed_step (hs : Sound s) (hok : rejoinsAlone s a = true) (hag : Agreed s)
    (h : Step P s a s') : Agreed s' := by
  obtain ⟨hdb, hviews⟩ := groups_step agree_local hs h (fun t t' hw _ => agree_writes hs hag hw)
    hag.db hag.views
  refine ⟨hdb, hviews, fun w m i t hf => ?_⟩
  rcases inFlight_step h hf with hf | ⟨rfl, rfl, hr⟩
  · exact hag.alone w m i t hf
  · simp only [rejoinsAlone, hr, Option.all_some, Bool.not_eq_true'] at hok
    exact alone_of_othersLive hs.known hok

omit [DecidableEq W] in
theorem initial_agree (hs : Initial s) (m : Nat) : Agree s.db.row m := by
  have hnone : ∀ i b, ¬ LiveAttempt s.db.row m i b := by
    intro i b hb
    have := hb.row
    rw [hs.attempts i] at this
    cases this
  refine ⟨fun i b hb => absurd hb (hnone i b), fun i b hb => absurd hb (hnone i b),
    fun i j b c hb => absurd hb (hnone i b), fun hne => ?_⟩
  have hst : (s.db.row (.move m) : Move).arcaState = .notRequired :=
    congrArg ArcaStatus.arcaState (hs.moves m)
  exact absurd (by rw [hst]; rfl) hne

omit [DecidableEq W] in
theorem initial_agreed (hs : Initial s) : Agreed s := by
  refine ⟨initial_agree hs, fun t ht => absurd ht (initial_not_live hs t), ?_⟩
  intro w m i t hf
  rw [hs.workers w] at hf
  cases hf

theorem reachable_agreed (h : Reachable (system P) (fun s a => rejoinsAlone s a = true) s) :
    Agreed s :=
  reachable_inv (fun _ => initial_agreed)
    (fun _ _ _ hr hok hag h => agreed_step (reachable_sound hr) hok hag (step_cases h)) h

/-! ## What the invoice says -/

structure OpenAttempt (v : View) (m i : Nat) (a : Attempt) : Prop where
  row : v (.attempt i) = some a
  move : a.moveId = some m
  isOpen : a.state.isOpen = true

structure AuthorizedAttempt (v : View) (m i : Nat) (a : Attempt) : Prop where
  row : v (.attempt i) = some a
  move : a.moveId = some m
  authorized : a.state = .authorized

def OneOpen (v : View) (m : Nat) (state : AttemptState) : Prop :=
  ∃ i a, OpenAttempt v m i a ∧ a.state = state ∧ ∀ j b, OpenAttempt v m j b → j = i

def NoOpen (v : View) (m : Nat) : Prop := ∀ i a, ¬ OpenAttempt v m i a

def OneAuthorized (v : View) (m : Nat) : Prop :=
  ∃ i a, AuthorizedAttempt v m i a ∧ (v (.move m) : Move).cae = a.cae ∧
    ∀ j b, AuthorizedAttempt v m j b → j = i

/-- The attempts that go with each state of an invoice. -/
def InvoiceAgrees (v : View) (m : Nat) : Prop :=
  match (v (.move m) : Move).arcaState with
  | .processing => OneOpen v m .sent
  | .uncertain => OneOpen v m .uncertain
  | .notRequired | .pending | .rejected => NoOpen v m ∧ ∀ i a, ¬ AuthorizedAttempt v m i a
  | .authorized => NoOpen v m ∧ OneAuthorized v m

section Agrees

variable {v : View} {m i : Nat} {b : Attempt}

theorem OpenAttempt.live (h : OpenAttempt v m i b) : LiveAttempt v m i b :=
  ⟨h.row, h.move, by simp [AttemptState.isLive, h.isOpen]⟩

theorem AuthorizedAttempt.live (h : AuthorizedAttempt v m i b) : LiveAttempt v m i b :=
  ⟨h.row, h.move, by simp [AttemptState.isLive, h.authorized]⟩

theorem agree_oneOpen {st : AttemptState} (h : Agree v m) (hst : st.isOpen = true)
    (he : expected (v (.move m) : Move).arcaState = some st) : OneOpen v m st := by
  obtain ⟨i, b, hb⟩ := h.found (by simp [he])
  have hbst : b.state = st := Option.some.inj ((h.state i b hb).symm.trans he)
  exact ⟨i, b, ⟨hb.row, hb.move, hbst ▸ hst⟩, hbst, fun j c hc => h.unique j i c b hc.live hb⟩

theorem agree_noOpen (h : Agree v m)
    (he : ∀ st, expected (v (.move m) : Move).arcaState = some st → st.isOpen = false) :
    NoOpen v m := by
  intro i b hb
  have := he _ (h.state i b hb.live)
  rw [hb.isOpen] at this
  cases this

theorem agree_invoice (h : Agree v m) : InvoiceAgrees v m := by
  unfold InvoiceAgrees
  cases hst : (v (.move m) : Move).arcaState with
  | processing => exact agree_oneOpen h rfl (by rw [hst]; rfl)
  | uncertain => exact agree_oneOpen h rfl (by rw [hst]; rfl)
  | notRequired | pending | rejected =>
    refine ⟨agree_noOpen h (by simp [hst, expected]), fun i b hb => ?_⟩
    have := h.state i b hb.live
    simp [hst, expected] at this
  | authorized =>
    refine ⟨agree_noOpen h (by simp [hst, expected, AttemptState.isOpen]), ?_⟩
    obtain ⟨i, b, hb⟩ := h.found (by simp [hst, expected])
    have hbst : b.state = .authorized := by
      have := h.state i b hb
      simpa [hst, expected] using this.symm
    exact ⟨i, b, ⟨hb.row, hb.move, hbst⟩, (h.cae i b hb hbst).1,
      fun j c hc => h.unique j i c b hc.live hb⟩

end Agrees

/-- In every run whose second snapshots meet the condition, every invoice agrees
with its attempts in every durable state. -/
theorem invoice_agrees (h : Reachable (system P) (fun s a => rejoinsAlone s a = true) s) (m : Nat) :
    InvoiceAgrees s.db.row m :=
  agree_invoice ((reachable_agreed h).db m)

theorem invoice_agrees_approved :
    ∃ s : Sys (Fin 3), Reachable (system Office.platform) (fun s a => rejoinsAlone s a = true) s ∧
      Office.arcaState s 0 = .authorized ∧ InvoiceAgrees s.db.row 0 := by
  obtain ⟨s, hs, hst⟩ := Office.reaches (fun s a => rejoinsAlone s a = true)
    (Office.posted 0 0 ++ Office.recorded 0 0 0 ++ Office.approved 0 0 "74000000000001")
    (fun s => Office.arcaState s 0 == .authorized) (by decide +kernel)
  exact ⟨s, hs, beq_iff_eq.mp hst, invoice_agrees hs 0⟩

/-- Between the first checkpoint of a run and its second snapshot, a button
closes its attempt, and the invoice starts over in another sequence. The first
run then authorizes an invoice whose second attempt is open. -/
theorem authorized_with_open_attempt :
    ∃ s : Sys (Fin 3), Reachable (system Office.platform) Always s ∧ ¬ InvoiceAgrees s.db.row 0 := by
  obtain ⟨s, hs, hst⟩ := Office.reaches Always
    (Office.posted 0 0 ++ Office.recorded 0 0 0 ++ Office.button 1 0 Office.noVoucher ++
      Office.renumbered 0 2 1 ++ Office.recorded 1 0 0 ++ Office.approved 0 0 "74000000000001")
    (fun s => Office.arcaState s 0 == .authorized && Office.attemptIs s 1 0 .sent)
    (by decide +kernel)
  rw [Bool.and_eq_true, beq_iff_eq] at hst
  obtain ⟨b, hb, hm, hsent⟩ := Office.attemptIs_spec hst.2
  refine ⟨s, hs, fun h => ?_⟩
  unfold InvoiceAgrees at h
  rw [show (s.db.row (.move 0) : Move).arcaState = .authorized from hst.1] at h
  exact h.1 1 b ⟨hb, hm, by rw [hsent]; rfl⟩

/-! ## Authorized is final -/

structure StaysAuthorized (old new : Move) : Prop where
  state : new.arcaState = .authorized
  cae : new.cae = old.cae
  caeDueDate : new.caeDueDate = old.caeDueDate

/-- A run takes its second snapshot only while its invoice has no other live
attempt, and its own attempt is not authorized yet. -/
def rejoinsUnsettled (s : Sys W) (a : Act W) : Bool :=
  rejoinsAlone s a &&
    match a with
    | .resume w => (s.worker w).job.resuming?.all fun p =>
      !(s.db.row (.attempt p.2)).any fun b => b.state == .authorized
    | _ => true

/-- The transaction takes the CAE from no invoice that its snapshot has authorized. -/
def Keeps (t : DbTx) : Prop :=
  ∀ m, (t.snap.row (.move m) : Move).arcaState = .authorized →
    StaysAuthorized (t.snap.row (.move m)) (t.view (.move m))

theorem keeps_pairWrite {t : DbTx} {i m : Nat} {b : Attempt} {st : ArcaStatus} (h : Keeps t)
    (hm : (t.view (.move m) : Move).arcaState ≠ .authorized) : Keeps (pairWrite t i b m st) := by
  intro m' hsnap
  rw [pairWrite_snap] at hsnap ⊢
  by_cases hmm : m' = m
  · subst hmm
    exact absurd (h m' hsnap).state hm
  · rw [pairWrite_move_ne hmm]
    exact h m' hsnap

theorem keeps_write {t : DbTx} {k : Key} {v : Row k} (h : Keeps t) (hk : ∀ m, k ≠ .move m) :
    Keeps (t.write k v) := by
  intro m hsnap
  rw [write_view_ne _ _ (hk m).symm]
  exact h m hsnap

theorem keeps_user {now : Nat} {D : Move → Prop} {K : Nat → Company → Prop} {t t' : DbTx}
    (h : Keeps t) (hu : UserWrites now D K t t') : Keeps t' := by
  induction hu with
  | refl => exact h
  | tail _ hu ih =>
    cases hu with
    | company | journal | certificate => exact keeps_write ih (by simp)
    | @move m v hv =>
      intro m' hsnap
      by_cases hmm : m' = m
      · subst hmm
        have hold := ih m' hsnap
        rw [write_snap, write_view_self]
        cases hv with
        | mark hn => exact absurd (hn.symm.trans hold.state) (by simp)
        | post | draft | edit => exact ⟨hold.state, hold.cae, hold.caeDueDate⟩
      · rw [write_view_ne _ _ (by simpa using hmm)]
        exact ih m' hsnap

/-- No open transaction takes a CAE away, or settles an authorized attempt again. -/
structure Final (s : Sys W) : Prop where
  keeps : ∀ t, Live s t → Keeps t
  unsettled : ∀ w m i t, (s.worker w).job.InFlight m i t →
    ∀ b : Attempt, t.view (.attempt i) = some b → b.state ≠ .authorized

omit [DecidableEq W] in
theorem keeps_writes {t t' : DbTx} (hs : Sound s) (hag : Agreed s) (hfin : Final s)
    (hw : Writes P s a t t') (h : Keeps t) : Keeps t' := by
  have ht := hag.views t hw.live
  cases hw with
  | user hw h' => exact keeps_user h (user_writes h')
  | create hw h' =>
    obtain ⟨header, detail, -, -, rfl⟩ := create_spec h'
    refine keeps_pairWrite h ?_
    rcases (checkReady_spec (asking_ready hs hw)).2 with hp | hp <;> simp [hp]
  | @outcome a w se m key i durationMs t t' r stage result hw hf h' =>
    have hflight : (s.worker w).job.InFlight m i t := by
      rw [hw]
      exact hf.inFlight
    obtain ⟨-, b, hb, hd⟩ := made_of_finishes hs hw hf
    obtain ⟨b', st, rfl, -⟩ := outcome_spec hb h'
    refine keeps_pairWrite h fun hauth => ?_
    obtain ⟨j, c, hc⟩ := (ht m).found (by simp [hauth, expected])
    obtain rfl := hag.alone w m i t hflight j c hc
    have hst := (ht m).state j c hc
    exact hfin.unsettled w m j t hflight c hc.row (by simpa [hauth, expected] using hst.symm)
  | reconcile hw h' =>
    obtain ⟨b, m, k, env, cuit, found, b', st, hr⟩ :=
      reconcile_spec (attempt_has_move hs (live_of_target hw)) h'
    obtain rfl := hr.write
    refine keeps_pairWrite h fun hauth => ?_
    have hlive : OpenAttempt t.view m _ b := ⟨hr.view, hr.move, hr.isOpen⟩
    have hst := (ht m).state _ b hlive.live
    have hopen := hr.isOpen
    rw [show b.state = .authorized by simpa [hauth, expected] using hst.symm] at hopen
    cases hopen

theorem final_step (hs : Sound s) (hag : Agreed s) (hok : rejoinsUnsettled s a = true)
    (hfin : Final s) (h : Step P s a s') : Final s' := by
  refine ⟨?_, fun w m i t hf b hb => ?_⟩
  · exact (views_step (D := fun _ => True) hs h (fun m hm => ⟨hm, rfl, rfl⟩)
      (fun k new => keeps_write (fun m hm => ⟨hm, rfl, rfl⟩) (by simp))
      (fun t t' hw => keeps_writes hs hag hfin hw) (fun _ _ _ _ => trivial) trivial hfin.keeps).2
  · rcases inFlight_step h hf with hf | ⟨rfl, rfl, hr⟩
    · exact hfin.unsettled w m i t hf b hb
    · intro hst
      simp only [rejoinsUnsettled, hr, Option.all_some, Bool.and_eq_true] at hok
      rw [start_view] at hb
      simp [hb, hst] at hok

omit [DecidableEq W] in
theorem initial_final (hs : Initial s) : Final s := by
  refine ⟨fun t ht => absurd ht (initial_not_live hs t), fun w m i t hf => ?_⟩
  rw [hs.workers w] at hf
  cases hf

theorem reachable_final (h : Reachable (system P) (fun s a => rejoinsUnsettled s a = true) s) :
    Agreed s ∧ Final s := by
  refine reachable_inv (P := fun s => Agreed s ∧ Final s)
    (fun _ hi => ⟨initial_agreed hi, initial_final hi⟩) ?_ h
  rintro s a s' hr hok ⟨hag, hfin⟩ hstep
  have hs := reachable_sound hr
  have hstep := step_cases hstep
  exact ⟨agreed_step hs (Bool.and_eq_true_iff.mp hok).1 hag hstep, final_step hs hag hok hfin hstep⟩

theorem authorized_step {m : Nat} (hs : Sound s) (hfin : Final s) (h : Step P s a s')
    (hm : (s.db.row (.move m) : Move).arcaState = .authorized) :
    StaysAuthorized (s.db.row (.move m)) (s'.db.row (.move m)) := by
  have hsame : s'.db.row (.move m) = s.db.row (.move m) →
      StaysAuthorized (s.db.row (.move m)) (s'.db.row (.move m)) := by
    intro he
    rw [he]
    exact ⟨hm, rfl, rfl⟩
  have hcommit : ∀ t, Isolated s.db s.nextAttempt t → Keeps t → s.commitTx t = some s'.db →
      StaysAuthorized (s.db.row (.move m)) (s'.db.row (.move m)) := by
    intro t ht hk hc
    obtain ⟨hfit, hdb, -⟩ := commitTx_spec hc
    rcases apply_row_fits ht.follows hfit (.move m) with hrow | ⟨hsnap, hview⟩
    · exact hsame (by rw [hdb, hrow])
    · rw [hsnap] at hm ⊢
      rw [hdb, hview]
      exact hk m hm
  cases step_effect h with
  | quiet hdb _ => exact hsame (by rw [hdb])
  | write _ hdb _ _ => exact hsame (by rw [hdb])
  | commit ht hc _ => exact hcommit _ (hs.isolated _ ht) (hfin.keeps _ ht) hc
  | ticket hc _ =>
    exact hcommit _ (isolated_ticket hs _ _)
      (keeps_write (fun m hm => ⟨hm, rfl, rfl⟩) (by simp)) hc

/-- In every run whose second snapshots meet the condition, an invoice that is
durably authorized stays so, with the same CAE and due date. -/
theorem authorized_final {t : Sys W} {m : Nat}
    (hs : Reachable (system P) (fun s a => rejoinsUnsettled s a = true) s)
    (ht : Leads (system P) (fun s a => rejoinsUnsettled s a = true) s t)
    (hm : (s.db.row (.move m) : Move).arcaState = .authorized) :
    StaysAuthorized (s.db.row (.move m)) (t.db.row (.move m)) := by
  refine leads_keep (P := fun t => StaysAuthorized (s.db.row (.move m)) (t.db.row (.move m))) hs ?_
    ht ⟨hm, rfl, rfl⟩
  intro u a u' hu _ hst hstep
  have hnext := authorized_step (reachable_sound hu) (reachable_final hu).2 (step_cases hstep) hst.state
  exact ⟨hnext.state, hnext.cae.trans hst.cae, hnext.caeDueDate.trans hst.caeDueDate⟩

theorem authorized_final_approved :
    ∃ s t : Sys (Fin 3),
      Leads (system Office.platform) (fun s a => rejoinsUnsettled s a = true) s t ∧
      Office.arcaState t 2 = .authorized ∧
      StaysAuthorized (s.db.row (.move 0)) (t.db.row (.move 0)) := by
  obtain ⟨s, t, hs, ht, hst⟩ := Office.reaches_then (fun s a => rejoinsUnsettled s a = true)
    (Office.posted 0 0 ++ Office.recorded 0 0 0 ++ Office.approved 0 0 "74000000000001")
    ([.start 2, .user 2 (.posting 2 none), .commit 2] ++ Office.recorded 1 2 0 ++
      Office.approved 1 1 "74000000000002")
    (fun s t => Office.arcaState s 0 == .authorized && Office.arcaState t 2 == .authorized)
    (by decide +kernel)
  rw [Bool.and_eq_true, beq_iff_eq, beq_iff_eq] at hst
  exact ⟨s, t, ht, hst.2, authorized_final hs ht hst.1⟩

/-- The request of a lost attempt is recorded late, while the next run of the
invoice is between its first checkpoint and its second snapshot. A button finds
the voucher and authorizes the invoice, and the run then rejects it. -/
theorem authorized_then_rejected :
    ∃ s t : Sys (Fin 3), Reachable (system Office.platform) Always s ∧
      Leads (system Office.platform) Always s t ∧ Office.arcaState s 0 = .authorized ∧
      Office.arcaState t 0 = .rejected := by
  obtain ⟨s, t, hs, ht, hst⟩ := Office.reaches_then Always
    (Office.posted 0 0 ++ Office.recorded 0 0 0 ++ Office.lost 0 ++ Office.cron 1 Office.noVoucher ++
      Office.recorded 0 0 0 ++ [.record 0 "74000000000001"] ++
      Office.button 1 1 (Office.voucherFound "74000000000001"))
    [.resume 0, .transmit 0, .refuse 1, .answer 0 Office.refusal 900, .settle 0]
    (fun s t => Office.arcaState s 0 == .authorized && Office.arcaState t 0 == .rejected)
    (by decide +kernel)
  rw [Bool.and_eq_true, beq_iff_eq, beq_iff_eq] at hst
  exact ⟨s, t, hs, ht, hst⟩

end ArcaEdi
