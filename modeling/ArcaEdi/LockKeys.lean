import Mathlib.Data.Set.Function
import ArcaEdi.Caller
import ArcaEdi.Exclusion

/-!
# The keys of the locks

PostgreSQL has one table of advisory locks for the two kinds of key. A key is a digest,
and the texts of both kinds begin alike. The reconciler computes the key of a sequence
again, from what an attempt recorded.
-/

namespace ArcaEdi

open Snapshot Runs PyText

/-! ## The texts -/

/-- What `_l10n_ar_arca_lock_key` hashes. -/
def lockText (issuerCuit : String) (posNumber docTypeCode : Int) : String :=
  s!"l10n_ar_arca:{issuerCuit}:{posNumber}:{docTypeCode}"

/-- What `_token_lock_key` hashes. -/
def tokenLockText (certificateId : Int) (service : String) : String :=
  s!"l10n_ar_arca_wsaa:{certificateId}:{service}"

section Texts

variable {cuit cuit' service service' : String} {pos pos' code code' k k' : Int}

theorem colon_notMem_int (n : Int) : ':' ∉ (toString n).toList := by
  intro h
  rcases toString_chars h with hdigit | hminus
  · exact absurd hdigit (by decide)
  · exact absurd hminus (by decide)

theorem lockText_toList : (lockText cuit pos code).toList = "l10n_ar_arca".toList ++
    ':' :: (cuit.toList ++ ':' :: (toString pos).toList ++ ':' :: (toString code).toList) := by
  have hfront : "l10n_ar_arca:".toList = "l10n_ar_arca".toList ++ [':'] := by decide
  change ("l10n_ar_arca:" ++ cuit ++ ":" ++ toString pos ++ ":" ++ toString code).toList = _
  simp only [String.toList_append, hfront, List.append_assoc, List.cons_append, List.nil_append]
  rfl

theorem tokenLockText_toList : (tokenLockText k service).toList = "l10n_ar_arca".toList ++
    '_' :: ("wsaa:".toList ++ ((toString k).toList ++ ':' :: service.toList)) := by
  have hfront : "l10n_ar_arca_wsaa:".toList = "l10n_ar_arca".toList ++ '_' :: "wsaa:".toList := by
    decide
  change ("l10n_ar_arca_wsaa:" ++ toString k ++ ":" ++ service).toList = _
  simp only [String.toList_append, hfront, List.append_assoc, List.cons_append]
  rfl

/-- The two numbers are read from the end, and a CUIT may be any text. -/
theorem lockText_inj : lockText cuit pos code = lockText cuit' pos' code' ↔
    cuit = cuit' ∧ pos = pos' ∧ code = code' := by
  rw [← String.toList_inj, lockText_toList, lockText_toList, List.append_cancel_left_eq, List.cons.injEq,
    and_iff_right rfl, last_field_inj (colon_notMem_int code) (colon_notMem_int code'),
    last_field_inj (colon_notMem_int pos) (colon_notMem_int pos'), String.toList_inj, String.toList_inj,
    String.toList_inj, toString_int_inj, toString_int_inj, and_assoc]

theorem tokenLockText_inj : tokenLockText k service = tokenLockText k' service' ↔
    k = k' ∧ service = service' := by
  rw [← String.toList_inj, tokenLockText_toList, tokenLockText_toList, List.append_cancel_left_eq,
    List.cons.injEq, and_iff_right rfl, List.append_cancel_left_eq,
    first_field_inj (colon_notMem_int k) (colon_notMem_int k'), String.toList_inj, String.toList_inj,
    toString_int_inj]

theorem lockText_ne_tokenLockText : lockText cuit pos code ≠ tokenLockText k service := by
  intro h
  rw [← String.toList_inj, lockText_toList, tokenLockText_toList, List.append_cancel_left_eq] at h
  exact absurd (List.cons.inj h).1 (by decide)

end Texts

/-! ## The keys -/

/-- The digest without its highest bit. -/
def Platform.masked (P : Platform) (text : String) : Nat := P.digest text &&& 0x7FFFFFFFFFFFFFFF

def Sequence.lockText (q : Sequence) : String :=
  ArcaEdi.lockText q.issuerCuit q.posNumber q.documentTypeCode

/-- `_l10n_ar_arca_sequence_lock_key` -/
def sequenceLockKey (P : Platform) (v : View) (m : Nat) : Except Exn Nat := do
  return P.lockKey (← moveSequence v m)

/-- The key that `_reconcile_isolated` computes from an attempt. -/
def reconcileLockKey (P : Platform) (b : Attempt) : Nat := P.lockKey b.seq

variable {P : Platform}

theorem masked_lt (text : String) : P.masked text < 2 ^ 63 :=
  Nat.lt_succ_of_le Nat.and_le_right

theorem Sequence.lockText_inj {q q' : Sequence} : q.lockText = q'.lockText ↔ q = q' := by
  unfold Sequence.lockText
  rw [ArcaEdi.lockText_inj, Int.natCast_inj, Int.natCast_inj, Sequence.mk.injEq]

theorem sequenceLockKey_eq_ok {v : View} {m key : Nat} :
    sequenceLockKey P v m = .ok key ↔ ∃ q, moveSequence v m = .ok q ∧ P.lockKey q = key := by
  simp only [sequenceLockKey, Raise.bind_eq_ok, Raise.pure_eq_ok]

/-! ## The keys of a run -/

variable {W : Type} [DecidableEq W] {s s' : Sys W} {a : Act W} {w : W}

/-- A run wrote the attempt, while the key of its invoice was the attempt's. -/
def WrittenByRun (P : Platform) (s : Sys W) (b : Attempt) : Prop :=
  ∃ (s₀ : Sys W) (w : W) (m key : Nat) (t : DbTx) (c : Intent),
    Reachable (system P) Always s₀ ∧ Leads (system P) Always s₀ s ∧
      (s₀.worker w).job = .request m key (.asking t c) ∧ b.moveId = some m ∧
      sequenceLockKey P t.view m = .ok (reconcileLockKey P b)

theorem writtenByRun_evidence {b b' : Attempt} (hev : b'.toEvidence = b.toEvidence)
    (h : WrittenByRun P s b) : WrittenByRun P s b' := by
  unfold WrittenByRun reconcileLockKey
  rw [hev]
  exact h

theorem writtenByRun_step {b : Attempt} (hs : step P s a = some s') (h : WrittenByRun P s b) :
    WrittenByRun P s' b := by
  obtain ⟨s₀, w, m, key, t, c, hr, hlead, hrun⟩ := h
  exact ⟨s₀, w, m, key, t, c, hr, .step hlead trivial hs, hrun⟩

theorem written_step (hr : Reachable (system P) Always s) (hs : step P s a = some s')
    (h : AllRows (fun _ _ => True) (fun _ => WrittenByRun P s) s) :
    AllRows (fun _ _ => True) (fun _ => WrittenByRun P s') s' := by
  have hsound := reachable_sound hr
  have hlead : Leads (system P) Always s s' := .step .refl trivial hs
  have hlater : AllRows (fun _ _ => True) (fun _ => WrittenByRun P s') s :=
    allRows_mono h (fun _ _ => id) fun _ _ => writtenByRun_step hs
  refine allRows_step hsound (fun _ _ _ _ => id) (fun _ _ _ => id) ?_ hlater (step_cases hs)
  intro t i b ht hrows hw
  cases hw with
  | @create w reply se m key c header detail hw hreq =>
    obtain ⟨-, now, hstart⟩ := job_sound hsound hw
    obtain ⟨-, -, hseq, -⟩ := authorizeStart_spec hstart
    exact ⟨s, w, m, key, t, c, hr, hlead, congrArg Worker.job hw, rfl,
      sequenceLockKey_eq_ok.mpr ⟨c.seq, hseq, rfl⟩⟩
  | outcome hw hf hview hd hev hout hc => exact writtenByRun_evidence hev (hrows.attempts _ _ hview)
  | reconcile hw hr => exact writtenByRun_evidence hr.evidence (hrows.attempts _ _ hr.view)

theorem reachable_written (h : Reachable (system P) Always s) :
    AllRows (fun _ _ => True) (fun _ => WrittenByRun P s) s := by
  refine reachable_inv (P := fun s => AllRows (fun _ _ => True) (fun _ => WrittenByRun P s) s) ?_
    (fun _ _ _ hr _ hrows hs => written_step hr hs hrows) h
  exact fun _ hi => initial_allRows hi fun _ => trivial

/-- A request holds the key that its caller sees, and the cron the key of its attempt. -/
structure KeysHeld (P : Platform) (s : Sys W) : Prop where
  request : ∀ w m key stage, (s.worker w).job = .request m key stage →
    ∃ t, (s.worker w).session = some t ∧ sequenceLockKey P t.view m = .ok key
  isolated : ∀ w queue i key stage, (s.worker w).job = .isolated queue i key stage →
    ∃ b : Attempt, s.db.row (.attempt i) = some b ∧ key = reconcileLockKey P b

theorem request_step {m key : Nat} {stage : Stage} (hk : KeysHeld P s) (hs : step P s a = some s')
    (hw : (s'.worker w).job = .request m key stage) :
    ∃ t, (s'.worker w).session = some t ∧ sequenceLockKey P t.view m = .ok key := by
  have hstep := step_cases hs
  -- Whatever a run does, its caller's session waits.
  have hkept : ∀ {stage}, a ≠ .kill w → (s.worker w).job = .request m key stage →
      ∃ t, (s'.worker w).session = some t ∧ sequenceLockKey P t.view m = .ok key := by
    intro stage ha hjob
    obtain ⟨t, ht, hkey⟩ := hk.request w m key stage hjob
    have hworker : s.worker w = ⟨some t, .request m key stage⟩ := by rw [← ht, ← hjob]
    exact ⟨t, session_kept hworker ha hs, hkey⟩
  rcases job_step hstep w with ⟨hne, hsame⟩ | ⟨-, hjob⟩
  · exact hkept (by rintro rfl; exact hne rfl) (hsame ▸ hw)
  rw [hw] at hjob
  generalize hj : (s.worker w).job = j at hjob
  cases hjob with
  | request ht hkey hl =>
    obtain ⟨q, hq, rfl⟩ := requestKey_spec hkey
    exact ⟨_, ht, sequenceLockKey_eq_ok.mpr ⟨q, hq, rfl⟩⟩
  | enter | create | checkpoint | resume | transmit => exact hkept nofun hj
  | outcome hf => exact hkept (by cases hf <;> nofun) hj

theorem isolated_step {queue : List Nat} {i key : Nat} {stage : IsolatedStage} (hs : Sound s) (hsc : Scoped s)
    (hk : KeysHeld P s) (h : Step P s a s') (hw : (s'.worker w).job = .isolated queue i key stage) :
    ∃ b : Attempt, s'.db.row (.attempt i) = some b ∧ key = reconcileLockKey P b := by
  suffices hold : ∃ b : Attempt, s.db.row (.attempt i) = some b ∧ key = reconcileLockKey P b by
    obtain ⟨b, hb, rfl⟩ := hold
    obtain ⟨c, hc, hev, -⟩ := (sound_onward hs h).later i b hb
    exact ⟨c, hc, by rw [reconcileLockKey, reconcileLockKey, hev]⟩
  rcases job_step h w with ⟨-, hsame⟩ | ⟨-, hjob⟩
  · exact hk.isolated w queue i key stage (hsame ▸ hw)
  rw [hw] at hjob
  generalize hj : (s.worker w).job = j at hjob
  cases hjob with
  | isolate ht hb hl =>
    obtain ⟨c, hc, hev⟩ := side_evidence (hsc.sessions w _ ht) (hs.isolated _ (live_session ht)) hb
    exact ⟨c, hc, by rw [reconcileLockKey, hev]⟩
  | enterIsolated | settled => exact hk.isolated w _ i key _ hj

theorem reachable_keysHeld (h : Reachable (system P) Always s) : KeysHeld P s := by
  refine reachable_inv (P := KeysHeld P) ?_ ?_ h
  · intro s hi
    constructor
    · intro w m key stage hw
      rw [hi.workers w] at hw
      cases hw
    · intro w queue i key stage hw
      rw [hi.workers w] at hw
      cases hw
  · intro s a s' hr _ hk hs
    exact ⟨fun w m key stage hw => request_step hk hs hw, fun w queue i key stage hw =>
      isolated_step (reachable_sound hr) (reachable_scoped hr) hk (step_cases hs) hw⟩

/-! ## What the locks promise -/

/-- Equal texts have equal parts, and no text of one kind is a text of the other. -/
structure TextsApart : Prop where
  sequences : ∀ cuit cuit' pos pos' code code', lockText cuit pos code = lockText cuit' pos' code' →
    cuit = cuit' ∧ pos = pos' ∧ code = code'
  tickets : ∀ k k' service service', tokenLockText k service = tokenLockText k' service' →
    k = k' ∧ service = service'
  kinds : ∀ cuit pos code k service, lockText cuit pos code ≠ tokenLockText k service

/-- The same of the keys of the texts in use. Each key fits a signed integer of 64 bits. -/
structure KeysApart (P : Platform) (texts : Set String) : Prop where
  sequences : ∀ q q', q.lockText ∈ texts → q'.lockText ∈ texts → P.lockKey q = P.lockKey q' → q = q'
  tickets : ∀ (k k' : Nat) service service', tokenLockText k service ∈ texts →
    tokenLockText k' service' ∈ texts → P.tokenLockKey k service = P.tokenLockKey k' service' →
    k = k' ∧ service = service'
  kinds : ∀ q (k : Nat) service, q.lockText ∈ texts → tokenLockText k service ∈ texts →
    P.lockKey q ≠ P.tokenLockKey k service
  sequence_lt : ∀ q, P.lockKey q < 2 ^ 63
  ticket_lt : ∀ k service, P.tokenLockKey k service < 2 ^ 63

/-- Every invoice on the sequence of an attempt has the attempt's key, and the run that wrote
the attempt saw its invoice there. Workers hold no other keys than these. -/
structure KeysAgree (P : Platform) (s : Sys W) : Prop where
  sequence : ∀ v m (b : Attempt), moveSequence v m = .ok b.seq →
    sequenceLockKey P v m = .ok (reconcileLockKey P b)
  written : ∀ i b, s.db.row (.attempt i) = some b → WrittenByRun P s b
  held : KeysHeld P s

theorem texts_apart : TextsApart where
  sequences _ _ _ _ _ _ := lockText_inj.mp
  tickets _ _ _ _ := tokenLockText_inj.mp
  kinds _ _ _ _ _ := lockText_ne_tokenLockText

theorem keys_apart {texts : Set String} (hdigest : Set.InjOn P.masked texts) : KeysApart P texts where
  sequences q q' hq hq' h := Sequence.lockText_inj.mp (hdigest hq hq' h)
  tickets k k' service service' hk hk' h := by
    obtain ⟨hid, hservice⟩ := tokenLockText_inj.mp (hdigest hk hk' h)
    exact ⟨Int.natCast_inj.mp hid, hservice⟩
  kinds q k service hq hk h := lockText_ne_tokenLockText (hdigest hq hk h)
  sequence_lt _ := masked_lt _
  ticket_lt _ _ := masked_lt _

/-- The texts of two locks are equal only for equal parts, and so are their keys wherever the
digest does not collide. An attempt is reconciled under the key of its sequence. -/
theorem lock_keys_agree (P : Platform) (texts : Set String) (hdigest : Set.InjOn P.masked texts) :
    TextsApart ∧ KeysApart P texts ∧ ∀ s : Sys W, Reachable (system P) Always s → KeysAgree P s := by
  refine ⟨texts_apart, keys_apart hdigest, fun s hs => ?_⟩
  constructor
  · exact fun v m b hseq => sequenceLockKey_eq_ok.mpr ⟨b.seq, hseq, rfl⟩
  · exact (reachable_written hs).db.attempts
  · exact reachable_keysHeld hs

/-- The digests of three texts. -/
def hashed : Platform where
  digest text := ([("l10n_ar_arca:30111111118:7:1", 0x176ccfa43a630d3d),
    ("l10n_ar_arca:30111111118:7:6", 0xaa42856515cd3b01),
    ("l10n_ar_arca_wsaa:1:wsfe", 0x53526b2f3bea7799)].lookup text).getD 0
  today _ := ⟨2026, 1, 1⟩

theorem lock_keys_agree_hashed :
    hashed.lockKey ⟨"30111111118", 7, 1⟩ ≠ hashed.lockKey ⟨"30111111118", 7, 6⟩ ∧
      hashed.lockKey ⟨"30111111118", 7, 1⟩ ≠ hashed.tokenLockKey 1 "wsfe" ∧
      ∀ s : Sys Bool, Reachable (system hashed) Always s → KeysAgree hashed s := by
  obtain ⟨-, hkeys, hruns⟩ := lock_keys_agree (W := Bool) hashed
    {"l10n_ar_arca:30111111118:7:1", "l10n_ar_arca:30111111118:7:6", "l10n_ar_arca_wsaa:1:wsfe"} (by
      rintro _ (rfl | rfl | rfl) _ (rfl | rfl | rfl) h <;> first | rfl | exact absurd h (by decide +kernel))
  refine ⟨fun h => ?_, hkeys.kinds _ _ _ (.inl (by decide +kernel)) (.inr (.inr (by decide +kernel))), hruns⟩
  have hsame := hkeys.sequences _ _ (.inl (by decide +kernel)) (.inr (.inl (by decide +kernel))) h
  exact absurd hsame (by decide)

end ArcaEdi
