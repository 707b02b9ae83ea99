import ArcaEdi.Loops

/-!
# What the crons come to

A record that fails keeps its state and its place in the search, so the next run of a
cron takes it again before the records behind it.
-/

namespace ArcaEdi

open Snapshot Raise

/-! ## `_cron_reconcile_open_attempts` -/

/-- `_get_auth` does not raise, where `_reconcile` comes to it. -/
def canAsk (now : Nat) (v : View) (i : Nat) : Bool :=
  (reconcileCertificate v i).all fun (a, k) => (Sys.auth now v k a.issuerCuit).isSome

/-- `_reconcile_isolated`, with nobody else at work. `reply` is what ARCA answers, and
none where it raises before it has an answer, ArcaSequenceBusy included. -/
def reconcileIsolated (now : Nat) (s : Ledger) (i : Nat)
    (reply : Option (SoapReply (Option ConsultResponse))) : Ledger :=
  match reply with
  | some reply =>
    if canAsk now s.db.row i then
      match reconcile now (Tx.start s.db) i reply with
      | .ok t => (s.commit t s.nextAttempt).getD s
      | .error _ => s
    else s
  | none => s

/-- What ARCA answers about each attempt in a run. -/
abbrev Arca.Consults := Nat → Option (SoapReply (Option ConsultResponse))

/-- One run of the reconciliation cron, with nobody else at work. -/
def cronReconcile (now limit : Nat) (consults : Arca.Consults) (s : Ledger) : Ledger :=
  (cronSearch now s.db.row s.nextAttempt limit).foldl
    (fun s i => reconcileIsolated now s i (consults i)) s

def reconcileRuns (now : Nat → Nat) (limit : Nat) (consults : Nat → Arca.Consults) (s : Ledger) :
    Nat → Ledger
  | 0 => s
  | r + 1 => cronReconcile (now r) limit (consults r) (reconcileRuns now limit consults s r)

/-! ## `_cron_l10n_ar_arca_authorize_pending` -/

def authorizeRuns (P : Platform) (now : Nat → Nat → Nat) (arca : Nat → Arca.Replies)
    (last : Nat → Line → Nat) (moves : List Nat) (limit : Nat) (s : Ledger) : Nat → Ledger
  | 0 => s
  | r + 1 => (Loop.cron P (now r) (arca r) (authorizeRuns P now arca last moves limit s r) (last r)
      moves limit).ledger

/-! ## What a try leaves as it was -/

section Reconcile

variable {now limit i j n r : Nat} {s s' : Ledger} {t t' : DbTx}

def NotOpen (v : View) (i : Nat) : Prop := ∀ a : Attempt, v (.attempt i) = some a → a.state.isOpen = false

/-- A try may close the attempts of `tried`, and changes no other attempt. -/
def OnlyCloses (tried : Nat → Prop) (v v' : View) : Prop :=
  ∀ j, v' (.attempt j) = v (.attempt j) ∨ tried j ∧ NotOpen v' j

theorem onlyCloses_refl {tried : Nat → Prop} (v : View) : OnlyCloses tried v v := fun _ => .inl rfl

theorem onlyCloses_trans {tried : Nat → Prop} {v v' v'' : View} (h : OnlyCloses tried v v')
    (h' : OnlyCloses tried v' v'') : OnlyCloses tried v v'' := by
  intro j
  rcases h' j with heq | hclosed
  · rcases h j with heq' | ⟨hj, hclosed⟩
    · exact .inl (heq.trans heq')
    · exact .inr ⟨hj, fun a ha => hclosed a (heq ▸ ha)⟩
  · exact .inr hclosed

theorem onlyCloses_writeAttempt {f : Attempt → Attempt} (hf : ∀ a, (f a).state.isOpen = false) :
    OnlyCloses (· = i) t.view (writeAttempt t i f).view := by
  intro j
  by_cases hj : j = i
  · subst hj
    refine .inr ⟨rfl, fun a ha => ?_⟩
    rw [writeAttempt, write_view_self] at ha
    obtain ⟨b, -, rfl⟩ := Option.map_eq_some_iff.mp ha
    exact hf b
  · exact .inl (write_view_ne _ _ (by simpa using hj))

theorem onlyCloses_writeArca {tried : Nat → Prop} {m : Nat} {g : ArcaStatus → ArcaStatus} :
    OnlyCloses tried t.view (writeArca t m g).view := fun _ => .inl (write_view_ne _ _ (by simp))

theorem reconcileFound_closes {moveId : Option Nat} {found : Option Found}
    (h : reconcileFound now t i moveId found = .ok t') :
    t'.snap = t.snap ∧ OnlyCloses (· = i) t.view t'.view := by
  cases found with
  | none =>
    have hclosed := onlyCloses_writeAttempt (t := t) (i := i) (f := Attempt.markAborted now
      "ARCA reports no voucher for this number; the request was not registered.") fun _ => rfl
    cases moveId <;> cases h
    · exact ⟨rfl, hclosed⟩
    · exact ⟨rfl, onlyCloses_trans hclosed onlyCloses_writeArca⟩
  | some found =>
    simp only [reconcileFound, bind_eq_ok] at h
    obtain ⟨due, -, h⟩ := h
    have hclosed := onlyCloses_writeAttempt (t := t) (i := i)
      (f := Attempt.markAuthorized now found.cae due (some found.raw) 0) fun _ => rfl
    cases moveId <;> cases h
    · exact ⟨rfl, hclosed⟩
    · exact ⟨rfl, onlyCloses_trans hclosed onlyCloses_writeArca⟩

theorem reconcile_closes {reply : SoapReply (Option ConsultResponse)}
    (h : reconcile now t i reply = .ok t') :
    t'.snap = t.snap ∧ OnlyCloses (· = i) t.view t'.view := by
  unfold reconcile at h
  split at h
  · simp only [bind_eq_ok] at h
    obtain ⟨found, -, hfound⟩ := h
    exact reconcileFound_closes hfound
  · cases h
    exact ⟨rfl, onlyCloses_refl _⟩

theorem reconcileIsolated_closes (now : Nat) (s : Ledger) (i : Nat)
    (reply : Option (SoapReply (Option ConsultResponse))) :
    (reconcileIsolated now s i reply).nextAttempt = s.nextAttempt ∧
      OnlyCloses (· = i) s.db.row (reconcileIsolated now s i reply).db.row := by
  unfold reconcileIsolated
  split
  · split
    · split
      · next t ht =>
        obtain ⟨hsnap, hcloses⟩ := reconcile_closes ht
        cases hcommit : s.commit t s.nextAttempt with
        | none => exact ⟨rfl, onlyCloses_refl _⟩
        | some s' =>
          obtain ⟨hrow, hids⟩ := commit_row_view hsnap hcommit
          rw [Option.getD_some, hrow]
          exact ⟨hids, hcloses⟩
      · exact ⟨rfl, onlyCloses_refl _⟩
    · exact ⟨rfl, onlyCloses_refl _⟩
  · exact ⟨rfl, onlyCloses_refl _⟩

theorem tries_close {consults : Arca.Consults} {queue : List Nat} :
    (queue.foldl (fun s i => reconcileIsolated now s i (consults i)) s).nextAttempt = s.nextAttempt ∧
      OnlyCloses (· ∈ queue) s.db.row
        (queue.foldl (fun s i => reconcileIsolated now s i (consults i)) s).db.row := by
  induction queue generalizing s with
  | nil => exact ⟨rfl, onlyCloses_refl _⟩
  | cons i queue ih =>
    obtain ⟨hids, hcloses⟩ := reconcileIsolated_closes now s i (consults i)
    obtain ⟨hids', hcloses'⟩ := ih (s := reconcileIsolated now s i (consults i))
    have hfirst : OnlyCloses (· ∈ i :: queue) s.db.row (reconcileIsolated now s i (consults i)).db.row :=
      fun j => (hcloses j).imp_right fun h => ⟨List.mem_cons.mpr (.inl h.1), h.2⟩
    exact ⟨hids'.trans hids, onlyCloses_trans hfirst fun j =>
      (hcloses' j).imp_right fun h => ⟨List.mem_cons_of_mem _ h.1, h.2⟩⟩

/-! ## The attempts that the runs come to -/

/-- What the search of the cron would find without its limit. -/
def openAttempts (now : Nat) (s : Ledger) : List Nat :=
  (attemptIds s.nextAttempt).filter fun i => (s.db.row (.attempt i)).any (·.isStale now)

theorem openAttempts_nodup (now : Nat) (s : Ledger) : (openAttempts now s).Nodup :=
  List.nodup_range.filter _

/-- What each run takes from the queue of attempts. -/
def reconcileTries (now : Nat → Nat) (limit : Nat) (consults : Nat → Arca.Consults) (s : Ledger)
    (r : Nat) : List Nat :=
  (openAttempts (now r) (reconcileRuns now limit consults s r)).take limit

theorem isStale_later {a : Attempt} {now' : Nat} (hle : now ≤ now') (h : a.isStale now = true) :
    a.isStale now' = true := by
  simp only [Attempt.isStale, Bool.and_eq_true, Bool.or_eq_true, decide_eq_true_eq] at h ⊢
  obtain ⟨hopen, huncertain | hold⟩ := h
  · exact ⟨hopen, .inl huncertain⟩
  · exact ⟨hopen, .inr (by omega)⟩

theorem mem_openAttempts : i ∈ openAttempts now s ↔ i < s.nextAttempt ∧
    ∃ a : Attempt, s.db.row (.attempt i) = some a ∧ a.isStale now = true := by
  simp [openAttempts, attemptIds, Option.any_eq_true]

theorem notOpen_notStale (h : NotOpen s.db.row i) : i ∉ openAttempts now s := by
  rw [mem_openAttempts]
  rintro ⟨-, a, ha, hstale⟩
  simp [Attempt.isStale, h a ha] at hstale

section Runs

variable {now : Nat → Nat} {consults : Nat → Arca.Consults} {fails : Nat → Bool}

theorem cronReconcile_eq {consults : Arca.Consults} {now : Nat} :
    cronReconcile now limit consults s = ((openAttempts now s).take limit).foldl
      (fun s i => reconcileIsolated now s i (consults i)) s := rfl

theorem reconcileRuns_close (now : Nat → Nat) (limit : Nat) (consults : Nat → Arca.Consults) (s : Ledger)
    (r : Nat) :
    (reconcileRuns now limit consults s r).nextAttempt = s.nextAttempt ∧
      OnlyCloses (fun _ => True) s.db.row (reconcileRuns now limit consults s r).db.row := by
  induction r with
  | zero => exact ⟨rfl, onlyCloses_refl _⟩
  | succ r ih =>
    obtain ⟨hids, hcloses⟩ := ih
    rw [reconcileRuns, cronReconcile_eq]
    refine ⟨tries_close.1.trans hids, onlyCloses_trans hcloses fun j => ?_⟩
    exact (tries_close.2 j).imp_right fun h => ⟨trivial, h.2⟩

theorem found_iff (hmono : Monotone now)
    (harrive : ∀ r, ∀ i ∈ openAttempts (now r) s, i ∈ openAttempts (now 0) s) :
    i ∈ openAttempts (now r) (reconcileRuns now limit consults s r) ↔ i ∈ openAttempts (now 0) s ∧
      (reconcileRuns now limit consults s r).db.row (.attempt i) = s.db.row (.attempt i) := by
  obtain ⟨hids, hcloses⟩ := reconcileRuns_close now limit consults s r
  constructor
  · intro hfound
    have hrow := (hcloses i).resolve_right fun h => notOpen_notStale h.2 hfound
    refine ⟨harrive r i ?_, hrow⟩
    rw [mem_openAttempts, hids, hrow] at hfound
    exact mem_openAttempts.mpr hfound
  · rintro ⟨hfirst, hrow⟩
    obtain ⟨hi, a, ha, hstale⟩ := mem_openAttempts.mp hfirst
    rw [mem_openAttempts, hids, hrow]
    exact ⟨hi, a, ha, isStale_later (hmono (Nat.zero_le r)) hstale⟩

/-- Runs one after another, while no more attempts become stale. The attempts of `fails`
stay as they are on every try, and each of the others is closed by its first. -/
structure ReconcilesQuietly (now : Nat → Nat) (limit : Nat) (consults : Nat → Arca.Consults)
    (s : Ledger) (fails : Nat → Bool) (n : Nat) : Prop where
  clock : Monotone now
  arrive : ∀ r, ∀ i ∈ openAttempts (now r) s, i ∈ openAttempts (now 0) s
  fails : ∀ r < n, ∀ i ∈ reconcileTries now limit consults s r,
    (i ∈ openAttempts (now (r + 1)) (reconcileRuns now limit consults s (r + 1)) ↔ fails i = true)

theorem openAttempts_runs (hq : ReconcilesQuietly now limit consults s fails n) :
    ∀ r ≤ n, openAttempts (now r) (reconcileRuns now limit consults s r) =
      Queue.runs limit fails (openAttempts (now 0) s) r := by
  let found (r i : Nat) : Bool :=
    ((reconcileRuns now limit consults s r).db.row (.attempt i)).any (·.isStale (now r))
  have hsearch : ∀ r, openAttempts (now r) (reconcileRuns now limit consults s r) =
      (attemptIds s.nextAttempt).filter (found r) := by
    intro r
    rw [openAttempts, (reconcileRuns_close now limit consults s r).1]
  have hmem : ∀ r, ∀ i ∈ attemptIds s.nextAttempt,
      found r i = decide (i ∈ openAttempts (now r) (reconcileRuns now limit consults s r)) := by
    intro r i hi
    rw [hsearch, Bool.eq_iff_iff, decide_eq_true_iff, List.mem_filter]
    simp [hi]
  have htable : (attemptIds s.nextAttempt).Nodup := List.nodup_range
  intro r hr
  rw [hsearch, Queue.filter_runs htable ?_ ?_ r hr]
  · rfl
  · intro r hr i hi
    have htable := (List.mem_filter.mp (List.mem_of_mem_take hi)).1
    rw [← hsearch] at hi
    rw [hmem _ i htable, Bool.eq_iff_iff, decide_eq_true_iff]
    exact hq.fails r hr i hi
  · intro r hr i hi hnot
    rw [← hsearch] at hnot
    have hrow : (reconcileRuns now limit consults s (r + 1)).db.row (.attempt i) =
        (reconcileRuns now limit consults s r).db.row (.attempt i) := by
      rw [reconcileRuns, cronReconcile_eq]
      exact (tries_close.2 i).resolve_right fun h => hnot h.1
    rw [hmem _ i hi, hmem _ i hi, Bool.eq_iff_iff, decide_eq_true_iff, decide_eq_true_iff,
      found_iff hq.clock hq.arrive, found_iff hq.clock hq.arrive, hrow]

theorem reconcile_tried_iff (hq : ReconcilesQuietly now limit consults s fails n) :
    (∃ r < n, i ∈ reconcileTries now limit consults s r) ↔
      i ∈ (openAttempts (now 0) s).take (Queue.reach limit fails (openAttempts (now 0) s) n) := by
  rw [← Queue.served_iff]
  have hqueue : ∀ r < n, reconcileTries now limit consults s r =
      (Queue.runs limit fails (openAttempts (now 0) s) r).take limit := fun r hr => by
    rw [reconcileTries, openAttempts_runs hq r (Nat.le_of_lt hr)]
  constructor
  · rintro ⟨r, hr, hi⟩
    exact ⟨r, hr, hqueue r hr ▸ hi⟩
  · rintro ⟨r, hr, hi⟩
    exact ⟨r, hr, (hqueue r hr).symm ▸ hi⟩

end Runs

end Reconcile

/-! ## A try is a run -/

section Run

open Runs

variable {W : Type} [DecidableEq W] {P : Platform} {sys : Sys W} {s : Ledger} {w : W} {u : DbTx}
  {queue : List Nat} {i : Nat} {a : Attempt}

/-- One attempt of the cron's queue is what its worker does, with nobody else at work. -/
theorem reconcileIsolated_leads {answer : Option (SoapReply (Option ConsultResponse))}
    (hfree : ∀ key, sys.locks key = none) (hfound : u.view (.attempt i) = some a)
    (hhonest : ∀ b k env cuit, ∀ reply ∈ answer, reconcileCertificate s.db.row i = some (b, k) →
      Sys.auth sys.clock s.db.row k b.issuerCuit = some (env, cuit) → sys.arca.honestConsult
        ⟨⟨env, cuit, b.posNumber, b.documentTypeCode⟩, b.documentNumber⟩ reply = true) :
    Leads (system P) Always ((sys.withLedger s).setWorker w ⟨some u, .cron (i :: queue)⟩)
      ((sys.withLedger (reconcileIsolated sys.clock s i answer)).setWorker w
        ⟨some u, .ofCron queue⟩) := by
  let key := P.lockKey a.seq
  let during (stage : IsolatedStage) : Sys W :=
    (sys.withLedger s).working w u key (.isolated queue i key stage)
  have hisolated : step P ((sys.withLedger s).setWorker w ⟨some u, .cron (i :: queue)⟩) (.isolate w) =
      some (during .locked) := by
    simp [step, Sys.isolate, Sys.setWorker, Sys.withLedger, Sys.working, Sys.lock, during, hfound, hfree,
      key]
  have hentered : step P (during .locked) (.enter w) = some (during (.working (Tx.start s.db))) := by
    simp [step, Sys.enter, during, Sys.withLedger]
  have hasking := leads_next (leads_next .refl hisolated) hentered
  have hended : (during (.working (Tx.start s.db))).endRun w (.ofCron queue) =
      (sys.withLedger s).setWorker w ⟨some u, .ofCron queue⟩ := working_endRun hfree
  have haborted : step P (during (.working (Tx.start s.db))) (.abort w) =
      some ((sys.withLedger s).setWorker w ⟨some u, .ofCron queue⟩) := by
    rw [← hended]
    simp [step, Sys.abort, during]
  have hsettled : ∀ t, step P (during (.settled t)) (.settle w) =
      some ((sys.withLedger ((s.commit t s.nextAttempt).getD s)).setWorker w
        ⟨some u, .ofCron queue⟩) := by
    intro t
    refine settle_step hfree fun t' h => ?_
    simp only [Sys.settle, h, Sys.settled]
    cases t'.commitTx t <;> rfl
  unfold reconcileIsolated
  split
  · next reply =>
    split
    · next hask =>
      cases hcert : reconcileCertificate s.db.row i with
      | none =>
        have hskipped : step P (during (.working (Tx.start s.db))) (.skip w) =
            some (during (.settled (Tx.start s.db))) := by
          simp [step, Sys.skip, during, hcert]
        have hread : reconcile sys.clock (Tx.start s.db) i reply = .ok (Tx.start s.db) := by
          simp [reconcile, hcert]
        rw [hread]
        exact leads_next (leads_next hasking hskipped) (hsettled _)
      | some asked =>
        obtain ⟨b, k⟩ := asked
        obtain ⟨⟨env, cuit⟩, hauth⟩ : ∃ granted,
            Sys.auth sys.clock s.db.row k b.issuerCuit = some granted := by
          rw [canAsk, hcert] at hask
          exact Option.isSome_iff_exists.mp hask
        have hread : (during (.working (Tx.start s.db))).reconcile (Tx.start s.db) i reply =
            some (reconcile sys.clock (Tx.start s.db) i reply) := by
          have htrue := hhonest b k env cuit reply rfl hcert hauth
          simp only [Sys.reconcile, reconcile, start_view, hcert, during, working_clock, working_arca,
            Sys.withLedger, hauth, htrue, ↓reduceIte]
          rfl
        split
        · next t ht =>
          have hconsulted : step P (during (.working (Tx.start s.db))) (.consult w reply) =
              some (during (.settled t)) := by
            rw [ht] at hread
            simp only [step, Sys.consult, during, working_worker] at hread ⊢
            rw [hread]
            simp
          exact leads_next (leads_next hasking hconsulted) (hsettled t)
        · next e he =>
          have hconsulted : step P (during (.working (Tx.start s.db))) (.consult w reply) =
              some ((sys.withLedger s).setWorker w ⟨some u, .ofCron queue⟩) := by
            rw [he] at hread
            rw [← hended]
            simp only [step, Sys.consult, during, working_worker] at hread ⊢
            rw [hread]
          exact leads_next hasking hconsulted
    · exact leads_next hasking haborted
  · exact leads_next hasking haborted

end Run

/-! ## The invoices that the runs come to -/

/-- What the search of the cron would find without its limit. -/
def pendingMoves (v : View) (moves : List Nat) : List Nat :=
  moves.filter fun m =>
    (v (.move m) : Move).arcaState == .pending && (v (.move m) : Move).state == .posted

def authorizeTries (P : Platform) (now : Nat → Nat → Nat) (arca : Nat → Arca.Replies)
    (last : Nat → Line → Nat) (moves : List Nat) (limit : Nat) (s : Ledger) (r : Nat) : List Nat :=
  Loop.cronBatch (authorizeRuns P now arca last moves limit s r) moves limit

/-- What keeps its place in the search: the invoices that fail, and those that the loop
of the cron passes over. -/
def keepsPlace (v : View) (fails : Nat → Bool) (m : Nat) : Bool := fails m || !isEdi v m

section Authorize

variable {P : Platform} {now : Nat → Nat → Nat} {arca : Nat → Arca.Replies}
  {last : Nat → Line → Nat} {moves : List Nat} {fails : Nat → Bool} {limit m n r : Nat}
  {s : Ledger} {v v' : View}

theorem mem_cronBatch : m ∈ Loop.cronBatch s moves limit ↔
    m ∈ (pendingMoves s.db.row moves).take limit ∧ isEdi s.db.row m = true := List.mem_filter

theorem authorizeRuns_next : Retains (authorizeRuns P now arca last moves limit s r).db.row
    (authorizeRuns P now arca last moves limit s (r + 1)).db.row :=
  fold_retains (s := ⟨authorizeRuns P now arca last moves limit s r, last r, []⟩)

theorem authorizeRuns_retains :
    Retains s.db.row (authorizeRuns P now arca last moves limit s r).db.row := by
  induction r with
  | zero => exact retains_refl _
  | succ r ih => exact retains_trans ih authorizeRuns_next

theorem authorizeRuns_untouched (h : m ∉ authorizeTries P now arca last moves limit s r) :
    ((authorizeRuns P now arca last moves limit s (r + 1)).db.row (.move m) : Move) =
      (authorizeRuns P now arca last moves limit s r).db.row (.move m) := fold_untouched h

/-- Runs one after another. The invoices of `fails` stay pending on every try, and each
of the others leaves the search with its first. -/
structure AuthorizesQuietly (P : Platform) (now : Nat → Nat → Nat) (arca : Nat → Arca.Replies)
    (last : Nat → Line → Nat) (moves : List Nat) (limit : Nat) (s : Ledger) (fails : Nat → Bool)
    (n : Nat) : Prop where
  table : moves.Nodup
  fails : ∀ r < n, ∀ m ∈ authorizeTries P now arca last moves limit s r,
    (((authorizeRuns P now arca last moves limit s (r + 1)).db.row (.move m) : Move).arcaState =
      .pending ↔ fails m = true)

theorem pendingMoves_runs (hq : AuthorizesQuietly P now arca last moves limit s fails n) :
    ∀ r ≤ n, pendingMoves (authorizeRuns P now arca last moves limit s r).db.row moves =
      Queue.runs limit (keepsPlace s.db.row fails) (pendingMoves s.db.row moves) r := by
  let found (r m : Nat) : Bool :=
    let v := (authorizeRuns P now arca last moves limit s r).db.row
    (v (.move m) : Move).arcaState == .pending && (v (.move m) : Move).state == .posted
  have hedi : ∀ r m, isEdi (authorizeRuns P now arca last moves limit s r).db.row m =
      isEdi s.db.row m := fun _ _ => isEdi_congr authorizeRuns_retains
  have hleft : ∀ r m, m ∉ authorizeTries P now arca last moves limit s r →
      found (r + 1) m = found r m := fun r m hnot => by
    simp only [found, authorizeRuns_untouched hnot]
  intro r hr
  change moves.filter (found r) = Queue.runs limit _ (moves.filter (found 0)) r
  refine Queue.filter_runs hq.table ?_ ?_ r hr
  · intro r hr m hm
    have hfound : found r m = true := (List.mem_filter.mp (List.mem_of_mem_take hm)).2
    rw [keepsPlace, ← hedi r m]
    by_cases hm' : m ∈ authorizeTries P now arca last moves limit s r
    · have hiff := hq.fails r hr m hm'
      have hstate : ((authorizeRuns P now arca last moves limit s (r + 1)).db.row (.move m) : Move).state =
          .posted := by
        rw [state_congr authorizeRuns_next]
        simp only [found, Bool.and_eq_true, beq_iff_eq] at hfound
        exact hfound.2
      rw [Bool.eq_iff_iff]
      simp [found, hstate, (mem_cronBatch.mp hm').2, hiff]
    · have hnot : isEdi (authorizeRuns P now arca last moves limit s r).db.row m = false := by
        by_contra hne
        exact hm' (mem_cronBatch.mpr ⟨hm, by simpa using hne⟩)
      simp [hleft r m hm', hfound, hnot]
  · exact fun r _ m _ hnot => hleft r m fun hm => hnot (mem_cronBatch.mp hm).1

theorem authorize_tried_iff (hq : AuthorizesQuietly P now arca last moves limit s fails n)
    (hedi : isEdi s.db.row m = true) :
    (∃ r < n, m ∈ authorizeTries P now arca last moves limit s r) ↔
      m ∈ (pendingMoves s.db.row moves).take
        (Queue.reach limit (keepsPlace s.db.row fails) (pendingMoves s.db.row moves) n) := by
  rw [← Queue.served_iff]
  have hqueue : ∀ r < n, (m ∈ authorizeTries P now arca last moves limit s r ↔
      m ∈ (Queue.runs limit (keepsPlace s.db.row fails) (pendingMoves s.db.row moves) r).take limit) := by
    intro r hr
    rw [authorizeTries, mem_cronBatch, pendingMoves_runs hq r (Nat.le_of_lt hr),
      isEdi_congr authorizeRuns_retains]
    simp [hedi]
  constructor
  · rintro ⟨r, hr, hm⟩
    exact ⟨r, hr, (hqueue r hr).mp hm⟩
  · rintro ⟨r, hr, hm⟩
    exact ⟨r, hr, (hqueue r hr).mpr hm⟩

end Authorize

/-! ## Starvation -/

/-- The runs that it takes to come to `eligible` records once. -/
def runsFor (eligible limit : Nat) : Nat := (eligible + limit - 1) / limit

/-- As many runs as the queue needs come to all of it exactly when the records that fail
leave enough room to the others. -/
theorem crons_come_to_all (limit : Nat) (s : Ledger) (fails : Nat → Bool) (queue : List Nat) :
    (∀ (now : Nat → Nat) (consults : Nat → Arca.Consults), queue = openAttempts (now 0) s →
      ReconcilesQuietly now limit consults s fails (runsFor queue.length limit) →
      ((∀ i ∈ queue, ∃ r < runsFor queue.length limit, i ∈ reconcileTries now limit consults s r) ↔
        queue.length ≤ Queue.reach limit fails queue (runsFor queue.length limit))) ∧
    ∀ (P : Platform) (now : Nat → Nat → Nat) (arca : Nat → Arca.Replies) (last : Nat → Line → Nat)
        (moves : List Nat) (n : Nat),
      queue = pendingMoves s.db.row moves →
      n = runsFor (queue.filter (isEdi s.db.row)).length limit →
      AuthorizesQuietly P now arca last moves limit s fails n →
      ((∀ m ∈ queue, isEdi s.db.row m = true →
          ∃ r < n, m ∈ authorizeTries P now arca last moves limit s r) ↔
        ∀ m ∈ queue, isEdi s.db.row m = true →
          m ∈ queue.take (Queue.reach limit (keepsPlace s.db.row fails) queue n)) := by
  constructor
  · rintro now consults rfl hq
    rw [← Queue.take_of_le (openAttempts_nodup _ _)]
    exact forall₂_congr fun i _ => reconcile_tried_iff hq
  · rintro P now arca last moves n rfl - hq
    exact forall₃_congr fun m _ hedi => authorize_tried_iff hq hedi

theorem attempts_starved {now : Nat → Nat} {limit n i : Nat} {consults : Nat → Arca.Consults}
    {s : Ledger} {fails : Nat → Bool} (hq : ReconcilesQuietly now limit consults s fails n)
    (hlen : limit ≤ (openAttempts (now 0) s).length)
    (hfirst : ∀ j ∈ (openAttempts (now 0) s).take limit, fails j = true)
    (hi : i ∉ (openAttempts (now 0) s).take limit) :
    ∀ r < n, i ∉ reconcileTries now limit consults s r := by
  intro r hr htried
  have hreach := (reconcile_tried_iff hq).mp ⟨r, hr, htried⟩
  obtain ⟨n, rfl⟩ : ∃ k, n = k + 1 := ⟨n - 1, by omega⟩
  rw [Queue.reach_blocked hlen hfirst] at hreach
  exact hi hreach

theorem le_runsFor {eligible limit : Nat} (hlimit : 0 < limit) :
    eligible ≤ runsFor eligible limit * limit := by
  have hdiv := Nat.div_add_mod (eligible + limit - 1) limit
  have hmod := Nat.mod_lt (eligible + limit - 1) hlimit
  rw [runsFor, Nat.mul_comm]
  omega

theorem attempts_tried {now : Nat → Nat} {limit : Nat} {consults : Nat → Arca.Consults} {s : Ledger}
    (hlimit : 0 < limit) (hq : ReconcilesQuietly now limit consults s (fun _ => false)
      (runsFor (openAttempts (now 0) s).length limit)) :
    ∀ i ∈ openAttempts (now 0) s, ∃ r < runsFor (openAttempts (now 0) s).length limit,
      i ∈ reconcileTries now limit consults s r := by
  intro i hi
  rw [reconcile_tried_iff hq, Queue.reach_free fun _ _ => rfl]
  exact (Queue.take_of_le (openAttempts_nodup _ _)).mpr (le_runsFor hlimit) i hi

/-! ## Two records of the office -/

namespace Office

/-- The invoices of `queued`, with the answer to each request lost. -/
def lostRows : View
  | .attempt i => some { unanswered with moveId := some i, documentNumber := i + 1 }
  | k => queued (fun _ => 15) k

def lostAnswers : Ledger := ⟨⟨lostRows, fun _ => 0⟩, 2, by decide +kernel⟩

/-- ARCA has no voucher of attempt `i`, and does not answer about the others. -/
def consultsOf (i : Nat) : Arca.Consults := fun j =>
  if j = i then some noVoucher else some (.exception ⟨.readTimeout, "ReadTimeout(...)", "Read timed out."⟩)

/-- ARCA authorized `n` last, and does not answer once that is number 1. -/
def breaksAfter : Nat → Arca.Replies
  | 0 => approving
  | _ => fun _ => ⟨fun _ => .xmlSyntaxError, fun _ => .xmlSyntaxError⟩

def consulted (i : Nat) : Nat → List Nat :=
  reconcileTries (fun _ => 0) 1 (fun _ => consultsOf i) lostAnswers

def requested (arca : Nat → Arca.Replies) : Nat → List Nat :=
  authorizeTries platform (fun _ _ => 0) arca (fun _ _ => 0) [0, 1] 1 (queue fun _ => 15)

end Office

theorem crons_come_to_all_two :
    (∀ i ∈ [0, 1], ∃ r < 2, i ∈ Office.consulted 0 r) ∧
      ∀ m ∈ [0, 1], ∃ r < 2, m ∈ Office.requested Office.breaksAfter r := by
  have hattempts : ReconcilesQuietly (fun _ => 0) 1 (fun _ => Office.consultsOf 0) Office.lostAnswers
      (· == 1) 2 :=
    ⟨fun _ _ _ => Nat.le_refl _, fun _ _ h => h, by decide +kernel⟩
  have hinvoices : AuthorizesQuietly Office.platform (fun _ _ => 0) Office.breaksAfter (fun _ _ => 0)
      [0, 1] 1 (Office.queue fun _ => 15) (· == 1) 2 :=
    ⟨by decide, by decide +kernel⟩
  constructor
  · exact ((crons_come_to_all 1 Office.lostAnswers (· == 1) [0, 1]).1 (fun _ => 0)
      (fun _ => Office.consultsOf 0) (by decide +kernel) hattempts).mpr (by decide +kernel)
  · have hrequested := ((crons_come_to_all 1 (Office.queue fun _ => 15) (· == 1) [0, 1]).2
      Office.platform (fun _ _ => 0) Office.breaksAfter (fun _ _ => 0) [0, 1] 2 (by decide +kernel)
      (by decide +kernel) hinvoices).mpr (by decide +kernel)
    exact fun m hm => hrequested m hm rfl

/-- The first record fails. Two runs of one record each take it twice, and neither comes
to the second. -/
theorem failing_front_starves :
    (ReconcilesQuietly (fun _ => 0) 1 (fun _ => Office.consultsOf 1) Office.lostAnswers (· == 0) 2 ∧
      openAttempts 0 Office.lostAnswers = [0, 1] ∧ ∀ r < runsFor 2 1, 1 ∉ Office.consulted 1 r) ∧
    AuthorizesQuietly Office.platform (fun _ _ => 0) (fun r => Office.breaksAfter (r + 1))
      (fun _ _ => 0) [0, 1] 1 (Office.queue fun _ => 15) (· == 0) 2 ∧
    (∀ m ∈ [0, 1], Waiting (Office.queue fun _ => 15).db.row m) ∧
    ∀ r < runsFor 2 1, 1 ∉ Office.requested (fun r => Office.breaksAfter (r + 1)) r := by
  have hattempts : ReconcilesQuietly (fun _ => 0) 1 (fun _ => Office.consultsOf 1) Office.lostAnswers
      (· == 0) 2 :=
    ⟨fun _ _ _ => Nat.le_refl _, fun _ _ h => h, by decide +kernel⟩
  have hqueue : openAttempts 0 Office.lostAnswers = [0, 1] := by decide +kernel
  refine ⟨⟨hattempts, hqueue, ?_⟩, ⟨by decide, by decide +kernel⟩, fun m _ => ⟨rfl, rfl, rfl⟩,
    by decide +kernel⟩
  apply attempts_starved hattempts <;> simp [hqueue]

end ArcaEdi
