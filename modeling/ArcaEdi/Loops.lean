import Mathlib.Data.List.Sort
import Mathlib.Order.WithBot
import Mathlib.Data.Prod.Lex
import ArcaEdi.Lib.Queue
import ArcaEdi.Answers
import ArcaEdi.Alone

/-!
# The loops of a batch

`_run` and `_cron_l10n_ar_arca_authorize_pending`. ARCA takes the numbers of a line one
after another, so a loop has to come to the invoices of a sequence in their order.
-/

namespace ArcaEdi

/-! ## A loop -/

/-- A loop between two invoices. -/
structure Loop where
  ledger : Ledger
  /-- The number that ARCA authorized last, on each line. -/
  last : Line → Nat
  attempted : List Nat

/-- What ARCA answers, given the last number of each line. -/
abbrev Arca.Replies := (Line → Nat) → Answers

namespace Loop

variable (P : Platform) (now : Nat → Nat) (arca : Arca.Replies) (v : View)

/-- One invoice of a loop. What its request raises is logged. `now m` is the time at
which the loop comes to invoice `m`, and `v` what its session sees. -/
def next (s : Loop) (m : Nat) : Loop :=
  let out := requestCae P (now m) v (arca s.last) s.ledger m
  { ledger := out.1
    last :=
      match out.2 with
      | some c => Function.update s.last c.line c.number
      | none => s.last
    attempted := s.attempted ++ [m] }

/-- `_run`, on the recordset that `_post` left. -/
def callback (s : Ledger) (last : Line → Nat) (ms : List Nat) : Loop :=
  ms.foldl (next P now arca s.db.row) ⟨s, last, []⟩

/-- What `_cron_l10n_ar_arca_authorize_pending` comes to with a request. -/
def cronBatch (s : Ledger) (moves : List Nat) (limit : Nat) : List Nat :=
  (Routes.searchPending s.db.row moves limit).filter (isEdi s.db.row)

/-- `_cron_l10n_ar_arca_authorize_pending` -/
def cron (s : Ledger) (last : Line → Nat) (moves : List Nat) (limit : Nat) : Loop :=
  (cronBatch s moves limit).foldl (next P now arca s.db.row) ⟨s, last, []⟩

end Loop

/-! ## Order -/

/-- `order="invoice_date asc, name asc"`, which puts the invoices without a date last.
`name` is the name of an invoice, as the database compares it. -/
def searchKey {κ : Type} (name : Nat → κ) (v : View) (m : Nat) : WithTop (ℕ ×ₗ ℕ ×ₗ ℕ) ×ₗ κ :=
  toLex
    (((v (.move m) : Move).invoiceDate.map fun d => toLex (d.year, toLex (d.month, d.day))), name m)

/-- Invoice `m` has a smaller number of the same sequence. -/
def Precedes (v : View) (m m' : Nat) : Prop :=
  ∃ a ∈ numberedOf v m, ∃ b ∈ numberedOf v m', a.sequence = b.sequence ∧ a.number < b.number

instance (v : View) (m m' : Nat) : Decidable (Precedes v m m') :=
  inferInstanceAs (Decidable (∃ a ∈ numberedOf v m, ∃ b ∈ numberedOf v m',
    a.sequence = b.sequence ∧ a.number < b.number))

/-- Each sequence is come to in increasing number. -/
def InOrder (v : View) (ms : List Nat) : Prop := ms.Pairwise fun m m' => ¬ Precedes v m' m

/-! ## Numbers -/

/-- The number of an invoice, where it is on the line. -/
def numberOn (v : View) (line : Line) (m : Nat) : Option Nat :=
  match voucherOf v m with
  | some c => if c.line = line then some c.number else none
  | none => none

/-- The invoices of the line carry the numbers that come next at ARCA. -/
def NextNumbers (v : View) (last : Line → Nat) (ms : List Nat) (line : Line) : Prop :=
  ∃ k, (ms.filterMap (numberOn v line)).Perm (List.range' (last line + 1) k)

/-- Nothing but its number is in the way of the request. -/
def Requestable (P : Platform) (now : Nat) (s : Ledger) (m : Nat) : Prop :=
  (∃ c line header detail, Buildable P now s.db.row m c line header detail) ∧
    ∀ i < s.nextAttempt, authorizedDocument s.db.row i ≠ documentOf s.db.row m

def IsAuthorized (v : View) (m : Nat) : Prop := (v (.move m) : Move).arcaState = .authorized

variable {P : Platform} {now : Nat → Nat} {arca : Arca.Replies} {v : View} {line : Line}
  {s : Loop} {n m m' : Nat} {ms : List Nat}

theorem numberOn_eq {n : Nat} : numberOn v line m = some n ↔ voucherOf v m = some ⟨line, n⟩ := by
  unfold numberOn
  cases voucherOf v m with
  | none => simp
  | some c =>
    obtain ⟨l, n'⟩ := c
    simp only [Option.some.injEq, Coordinates.mk.injEq]
    split <;> simp_all

theorem numberedOf_of_voucher {c : Coordinates} (h : voucherOf v m = some c) :
    ∃ a ∈ numberedOf v m, a.sequence = (c.line.cuit, c.line.ptoVta, c.line.cbteTipo) ∧
      a.number = c.number := by
  unfold voucherOf at h
  simp only [Option.bind_eq_bind, Option.bind_eq_some_iff] at h
  obtain ⟨k, -, a, ha, hc⟩ := h
  cases hc
  exact ⟨a, ha, rfl, rfl⟩

theorem numbers_sorted (h : InOrder v ms) :
    (ms.filterMap (numberOn v line)).Pairwise (· ≤ ·) := by
  rw [List.pairwise_filterMap]
  refine h.imp fun {m m'} hle n hn n' hn' => ?_
  obtain ⟨a, ha, hseq, hnum⟩ := numberedOf_of_voucher (numberOn_eq.mp hn)
  obtain ⟨b, hb, hseq', hnum'⟩ := numberedOf_of_voucher (numberOn_eq.mp hn')
  simp only at hnum hnum'
  by_contra hlt
  exact hle ⟨b, hb, a, ha, hseq'.trans hseq.symm, by omega⟩

theorem numbers_eq {last : Line → Nat} (h : InOrder v ms) (hnext : NextNumbers v last ms line) :
    ∃ k, ms.filterMap (numberOn v line) = List.range' (last line + 1) k := by
  obtain ⟨k, hperm⟩ := hnext
  exact ⟨k, hperm.eq_of_pairwise (fun _ _ _ _ => Nat.le_antisymm) (numbers_sorted h)
    ((List.pairwise_lt_range' 1).imp Nat.le_of_lt)⟩

/-! ## One invoice after another -/

/-- ARCA tells the last number, and approves what is asked. -/
structure Approving (arca : Arca.Replies) : Prop where
  last : ∀ last line, feCompUltimoAutorizado line.ptoVta ((arca last).ultimoAutorizado line) =
    .ok (last line)
  approves : ∀ last c, ∃ result due, feCaeSolicitar ((arca last).caeSolicitar c) = .ok result ∧
    dateField result.caeDueDate = .ok due

theorem next_spec (P : Platform) (now : Nat → Nat) (arca : Arca.Replies) (v : View) (s : Loop)
    (m : Nat) :
    Requested s.ledger m ((s.next P now arca v m).ledger,
      (requestCae P (now m) v (arca s.last) s.ledger m).2) :=
  requestCae_spec ..

theorem next_untouched (h : m' ≠ m) :
    ((s.next P now arca v m).ledger.db.row (.move m') : Move) = s.ledger.db.row (.move m') :=
  (next_spec P now arca v s m).others m' h

theorem fold_untouched (h : m ∉ ms) :
    ((ms.foldl (Loop.next P now arca v) s).ledger.db.row (.move m) : Move) =
      s.ledger.db.row (.move m) := by
  induction ms generalizing s with
  | nil => rfl
  | cons m' ms ih =>
    obtain ⟨hne, hnot⟩ : m ≠ m' ∧ m ∉ ms := by simpa using h
    rw [List.foldl_cons, ih hnot, next_untouched hne]

theorem fold_retains :
    Retains s.ledger.db.row (ms.foldl (Loop.next P now arca v) s).ledger.db.row := by
  induction ms generalizing s with
  | nil => exact retains_refl _
  | cons m ms ih => exact retains_trans (next_spec P now arca v s m).keeps ih

theorem fold_attempted :
    (ms.foldl (Loop.next P now arca v) s).attempted = s.attempted ++ ms := by
  induction ms generalizing s with
  | nil => simp
  | cons m ms ih => rw [List.foldl_cons, ih, Loop.next, List.append_assoc, List.singleton_append]

theorem next_last (h : numberOn s.ledger.db.row line m = none) :
    (s.next P now arca v m).last line = s.last line := by
  cases hc : (requestCae P (now m) v (arca s.last) s.ledger m).2 with
  | none => simp only [Loop.next, hc]
  | some c =>
    have hvoucher := (requestCae_spec P (now m) v (arca s.last) s.ledger m).sent c hc
    have hline : line ≠ c.line := by
      rintro rfl
      rw [numberOn_eq.mpr hvoucher] at h
      cases h
    simp only [Loop.next, hc, Function.update_of_ne hline]

theorem numberOn_congr {v' : View} (h : Retains v v') : numberOn v' line m = numberOn v line m := by
  unfold numberOn
  rw [voucherOf_congr h]

theorem requestable_next (h : Requestable P n s.ledger m') (hne : m' ≠ m)
    (hdoc : documentOf s.ledger.db.row m ≠ documentOf s.ledger.db.row m') :
    Requestable P n (s.next P now arca v m).ledger m' := by
  have hreq := next_spec P now arca v s m
  obtain ⟨⟨c, line, header, detail, hb⟩, hfree⟩ := h
  refine ⟨⟨c, line, header, detail, buildable_congr hreq.keeps (hreq.others m' hne) hb⟩, ?_⟩
  intro i hi heq
  rw [documentOf_congr hreq.keeps, (buildable_targets hb).2] at heq
  rw [(buildable_targets hb).2] at hfree hdoc
  by_cases hold : i < s.ledger.nextAttempt
  · refine hfree i hold ?_
    rw [← heq]
    unfold authorizedDocument
    rw [← hreq.attempts i hold]
  · exact hdoc (hreq.added i (Nat.not_lt.mp hold) hi _ heq)

theorem requestable_before (h : Requestable P n (s.next P now arca v m).ledger m') (hne : m' ≠ m) :
    Requestable P n s.ledger m' := by
  have hreq := next_spec P now arca v s m
  obtain ⟨⟨c, line, header, detail, hb⟩, hfree⟩ := h
  refine ⟨⟨c, line, header, detail, buildable_congr (retains_symm hreq.keeps)
    (hreq.others m' hne).symm hb⟩, ?_⟩
  intro i hi heq
  refine hfree i (Nat.lt_of_lt_of_le hi hreq.ids) ?_
  rw [documentOf_congr hreq.keeps, ← heq]
  unfold authorizedDocument
  rw [hreq.attempts i hi]

/-! ## The whole loop -/

theorem requestKey_ok {c : Intent} {header : FeCabReq} {detail : FeCaeDetRequest}
    (hb : Buildable P n v m c line header detail) : ∃ key, Sys.requestKey P v m = .ok key := by
  obtain ⟨hready, -, hseq, -⟩ := authorizeStart_spec hb.start
  exact ⟨_, by rw [Sys.requestKey, hready, hseq]; rfl⟩

theorem next_approved (harca : Approving arca) (hr : Requestable P (now m) s.ledger m)
    (hview : (v (.move m) : Move) = s.ledger.db.row (.move m)) (hkeeps : Retains v s.ledger.db.row)
    (hnumber : numberOn v line m = some (s.last line + 1)) :
    IsAuthorized (s.next P now arca v m).ledger.db.row m ∧
      (s.next P now arca v m).last line = s.last line + 1 := by
  obtain ⟨⟨c, line', header, detail, hb⟩, hfree⟩ := hr
  obtain ⟨key, hkey⟩ := requestKey_ok (buildable_congr (retains_symm hkeeps) hview hb)
  have hvoucher := numberOn_eq.mp hnumber
  rw [← voucherOf_congr hkeeps, (buildable_targets hb).1] at hvoucher
  obtain ⟨rfl, hnum⟩ := Coordinates.mk.inj (Option.some.inj hvoucher)
  obtain ⟨result, due, hresult, hdue⟩ := harca.approves s.last ⟨line', c.number⟩
  obtain ⟨hsent, hauth⟩ := requestCae_approved hkey hb (harca.last s.last line') hnum hfree hresult hdue
  refine ⟨hauth, ?_⟩
  simp only [Loop.next, hsent, Function.update_self, hnum]

theorem fold_authorizes (harca : Approving arca) {k : Nat} (hn : ms.Nodup)
    (hview : ∀ m ∈ ms, (v (.move m) : Move) = s.ledger.db.row (.move m))
    (hkeeps : Retains v s.ledger.db.row)
    (hnumbers : ms.filterMap (numberOn v line) = List.range' (s.last line + 1) k)
    (hr : ∀ m ∈ ms, (numberOn v line m).isSome → Requestable P (now m) s.ledger m) :
    ∀ m ∈ ms, (numberOn v line m).isSome →
      IsAuthorized (ms.foldl (Loop.next P now arca v) s).ledger.db.row m := by
  induction ms generalizing s k with
  | nil => simp
  | cons m ms ih =>
    obtain ⟨hnot, hn⟩ := List.nodup_cons.mp hn
    have hreq := requestCae_spec P (now m) v (arca s.last) s.ledger m
    have hne : ∀ m' ∈ ms, m' ≠ m := fun m' hm' => ne_of_mem_of_not_mem hm' hnot
    have hview' : ∀ m' ∈ ms, (v (.move m') : Move) =
        (s.next P now arca v m).ledger.db.row (.move m') := by
      intro m' hm'
      rw [hview m' (List.mem_cons_of_mem _ hm')]
      exact (next_untouched (hne m' hm')).symm
    have hkeeps' : Retains v (s.next P now arca v m).ledger.db.row := retains_trans hkeeps hreq.keeps
    -- the others on the line have other numbers, so they are other documents
    have hdistinct : ∀ m' ∈ ms, (numberOn v line m').isSome →
        documentOf s.ledger.db.row m ≠ documentOf s.ledger.db.row m' := by
      intro m' hm' hline' hdoc
      obtain ⟨⟨c, l, header, detail, hb⟩, -⟩ := hr m' (List.mem_cons_of_mem _ hm') hline'
      have hsame : numberOn v line m = numberOn v line m' := by
        unfold numberOn
        rw [← voucherOf_congr hkeeps, ← voucherOf_congr hkeeps,
          voucherOf_document (hdoc.trans (buildable_targets hb).2) (buildable_targets hb).2]
      obtain ⟨a, ha⟩ := Option.isSome_iff_exists.mp hline'
      have hnodup : ((m :: ms).filterMap (numberOn v line)).Nodup := hnumbers ▸ List.nodup_range' 1
      rw [List.filterMap_cons_some (hsame.trans ha)] at hnodup
      exact (List.nodup_cons.mp hnodup).1 (List.mem_filterMap.mpr ⟨m', hm', ha⟩)
    have hr' : ∀ m' ∈ ms, (numberOn v line m').isSome →
        Requestable P (now m') (s.next P now arca v m).ledger m' := fun m' hm' hline' =>
      requestable_next (hr m' (List.mem_cons_of_mem _ hm') hline') (hne m' hm')
        (hdistinct m' hm' hline')
    cases hline : numberOn v line m with
    | none =>
      rw [List.filterMap_cons_none hline, ← next_last (numberOn_congr hkeeps ▸ hline)] at hnumbers
      intro m' hm' hline'
      rcases List.mem_cons.mp hm' with rfl | hm'
      · simp [hline] at hline'
      · exact ih hn hview' hkeeps' hnumbers hr' m' hm' hline'
    | some a =>
      rw [List.filterMap_cons_some hline] at hnumbers
      cases k with
      | zero => cases hnumbers
      | succ k =>
        rw [List.range'_succ] at hnumbers
        obtain ⟨hnumber, hrest⟩ := List.cons.inj hnumbers
        rw [hnumber] at hline
        obtain ⟨hauth, hlast⟩ := next_approved harca (hr m List.mem_cons_self (by simp [hline]))
          (hview m List.mem_cons_self) hkeeps hline
        rw [← hlast] at hrest
        intro m' hm' hline'
        rcases List.mem_cons.mp hm' with rfl | hm'
        · rw [List.foldl_cons, IsAuthorized, fold_untouched hnot]
          exact hauth
        · exact ih hn hview' hkeeps' hrest hr' m' hm' hline'

theorem requestable_of_authorized (hn : ms.Nodup) (hm : m ∈ ms)
    (hbefore : ¬ IsAuthorized s.ledger.db.row m)
    (h : IsAuthorized (ms.foldl (Loop.next P now arca v) s).ledger.db.row m) :
    Requestable P (now m) s.ledger m := by
  induction ms generalizing s with
  | nil => cases hm
  | cons m' ms ih =>
    obtain ⟨hnot, hn⟩ := List.nodup_cons.mp hn
    rw [List.foldl_cons] at h
    rcases List.mem_cons.mp hm with rfl | hm
    · rw [IsAuthorized, fold_untouched hnot] at h
      obtain ⟨c, line, header, detail, last, hb, -, -, hfree⟩ := requestCae_authorized hbefore h
      exact ⟨⟨c, line, header, detail, hb⟩, hfree⟩
    · have hne : m ≠ m' := ne_of_mem_of_not_mem hm hnot
      refine requestable_before (ih hn hm ?_ h) hne
      rw [IsAuthorized, next_untouched hne]
      exact hbefore

/-! ## Batches -/

/-- What a batch owes: each sequence in its order, and every invoice of a line whose
numbers come next authorized. -/
structure Served (v : View) (last : Line → Nat) (ms : List Nat) (s : Loop) : Prop where
  inOrder : InOrder v s.attempted
  authorized : ∀ line, NextNumbers v last ms line → ∀ m ∈ ms, (numberOn v line m).isSome →
    IsAuthorized s.ledger.db.row m

/-- Every invoice of a line whose numbers come next can be requested. -/
def AllRequestable (P : Platform) (now : Nat → Nat) (s : Ledger) (last : Line → Nat)
    (ms : List Nat) : Prop :=
  ∀ line, NextNumbers s.db.row last ms line → ∀ m ∈ ms, (numberOn s.db.row line m).isSome →
    Requestable P (now m) s m

/-- An invoice that a batch is for. -/
structure Waiting (v : View) (m : Nat) : Prop where
  posted : (v (.move m) : Move).state = .posted
  pending : (v (.move m) : Move).arcaState = .pending
  edi : isEdi v m = true

theorem served_iff {s : Ledger} {last : Line → Nat} (harca : Approving arca) (hn : ms.Nodup)
    (hms : ∀ m ∈ ms, Waiting s.db.row m) :
    Served s.db.row last ms (Loop.callback P now arca s last ms) ↔
      InOrder s.db.row ms ∧ AllRequestable P now s last ms := by
  constructor
  · rintro ⟨hin, hauth⟩
    rw [Loop.callback, fold_attempted] at hin
    refine ⟨hin, fun line hnext m hm hline => ?_⟩
    refine requestable_of_authorized (s := ⟨s, last, []⟩) hn hm ?_ (hauth line hnext m hm hline)
    simp [IsAuthorized, (hms m hm).pending]
  · rintro ⟨hin, hreq⟩
    refine ⟨by rwa [Loop.callback, fold_attempted], fun line hnext => ?_⟩
    obtain ⟨k, hk⟩ := numbers_eq hin hnext
    exact fold_authorizes (s := ⟨s, last, []⟩) harca hn (fun _ _ => rfl) (retains_refl _) hk
      (hreq line hnext)

theorem cronBatch_waiting {s : Ledger} {moves : List Nat} {limit : Nat}
    (h : m ∈ Loop.cronBatch s moves limit) : Waiting s.db.row m := by
  obtain ⟨hfound, hedi⟩ := List.mem_filter.mp h
  have hstates := (List.mem_filter.mp (List.mem_of_mem_take hfound)).2
  rw [Bool.and_eq_true, beq_iff_eq, beq_iff_eq] at hstates
  exact ⟨hstates.2, hstates.1, hedi⟩

theorem cronBatch_sublist (s : Ledger) (moves : List Nat) (limit : Nat) :
    (Loop.cronBatch s moves limit).Sublist moves :=
  List.filter_sublist.trans ((List.take_sublist _ _).trans List.filter_sublist)

/-- The callback goes in the order of the numbers exactly when its recordset does. The cron
does exactly when date and name put the numbers in their order. Where ARCA approves, that
decides who is served. -/
theorem batch_in_order {κ : Type} [LinearOrder κ] {s : Ledger} {last : Line → Nat} :
    (∀ ms : List Nat, ms.Nodup → (∀ m ∈ ms, Waiting s.db.row m) →
      (InOrder s.db.row (Loop.callback P now arca s last ms).attempted ↔ InOrder s.db.row ms) ∧
      (Approving arca → (Served s.db.row last ms (Loop.callback P now arca s last ms) ↔
        InOrder s.db.row ms ∧ AllRequestable P now s last ms))) ∧
    ∀ (name : Nat → κ) (moves : List Nat) (limit : Nat), moves.Nodup →
      moves.Pairwise (fun m m' => searchKey name s.db.row m ≤ searchKey name s.db.row m') →
      (∀ m ∈ moves, ∀ m' ∈ moves, Precedes s.db.row m m' → name m ≠ name m') →
      (InOrder s.db.row (Loop.cron P now arca s last moves limit).attempted ↔
        ∀ m ∈ Loop.cronBatch s moves limit, ∀ m' ∈ Loop.cronBatch s moves limit,
          Precedes s.db.row m m' → searchKey name s.db.row m < searchKey name s.db.row m') ∧
      (Approving arca → (Served s.db.row last (Loop.cronBatch s moves limit)
          (Loop.cron P now arca s last moves limit) ↔
        (∀ m ∈ Loop.cronBatch s moves limit, ∀ m' ∈ Loop.cronBatch s moves limit,
          Precedes s.db.row m m' → searchKey name s.db.row m < searchKey name s.db.row m') ∧
        AllRequestable P now s last (Loop.cronBatch s moves limit))) := by
  have hattempted (ms : List Nat) : (Loop.callback P now arca s last ms).attempted = ms :=
    fold_attempted
  refine ⟨fun ms hn hms => ⟨by rw [hattempted], fun harca => served_iff harca hn hms⟩, ?_⟩
  intro name moves limit hn hsorted hnames
  have hsub := cronBatch_sublist s moves limit
  have hkeys : ∀ m ∈ Loop.cronBatch s moves limit, ∀ m' ∈ Loop.cronBatch s moves limit,
      Precedes s.db.row m m' → searchKey name s.db.row m ≠ searchKey name s.db.row m' :=
    fun m hm m' hm' hlt heq => hnames m (hsub.subset hm) m' (hsub.subset hm') hlt
      (congrArg (fun k => (ofLex k).2) heq)
  have hserves : InOrder s.db.row (Loop.cronBatch s moves limit) ↔ _ :=
    Queue.sorted_serves_iff (hsorted.sublist hsub) hkeys
  have hcron : (Loop.cron P now arca s last moves limit).attempted = Loop.cronBatch s moves limit :=
    hattempted _
  rw [← hserves]
  refine ⟨by rw [hcron], fun harca => ?_⟩
  exact served_iff harca (hn.sublist hsub) fun _ => cronBatch_waiting

/-! ## A loop is a run -/

/-- ARCA holds no voucher past the last number of a line. -/
def Arca.Unissued (arca : Arca) : Prop :=
  ∀ c : Coordinates, arca.last c.line < c.number → arca.voucher c = none

theorem unissued_issue {a a' : Arca} {c : Coordinates} {voucher : Voucher} (h : a.Unissued)
    (hissue : a.issue c voucher = some a') :
    a'.last = Function.update a.last c.line c.number ∧ a'.Unissued := by
  unfold Arca.issue at hissue
  split at hissue
  · next hnext =>
    cases hissue
    refine ⟨rfl, fun d hd => ?_⟩
    simp only at hd ⊢
    by_cases hline : d.line = c.line
    · rw [hline, Function.update_self] at hd
      have hne : d ≠ c := by
        rintro rfl
        exact Nat.lt_irrefl _ hd
      rw [Function.update_of_ne hne]
      exact h d (by rw [hline]; omega)
    · rw [Function.update_of_ne hline] at hd
      have hne : d ≠ c := by
        rintro rfl
        exact hline rfl
      rw [Function.update_of_ne hne]
      exact h d hd
  · cases hissue

section Run

open Runs

variable {W : Type} [DecidableEq W] {sys : Sys W} {w : W} {u : DbTx} {last : Line → Nat}

theorem approving_answerable (P : Platform) (sys : Sys W) (harca : Approving arca)
    (hun : sys.arca.Unissued) :
    Answerable P (arca sys.arca.last)
      (fun a c => a.last = Function.update sys.arca.last c.line c.number ∧ a.Unissued) sys := by
  refine ⟨fun line => (honest_last (harca.last _ line)).mpr rfl, ?_⟩
  intro t sent hclock hsent hfate hnext ht
  obtain ⟨result, due, hresult, -⟩ := harca.approves sys.arca.last sent.coordinates
  let cae := result.cae.getD ""
  let n := sys.arca.sent.length
  have hvoucher : sys.arca.voucher sent.coordinates = none := hun _ (by omega)
  obtain ⟨a, ha⟩ : ∃ a, (t.arca.settle n .recorded).issue sent.coordinates ⟨some sent.attempt, cae⟩ =
      some a := by
    simp [Arca.issue, Arca.settle, ht, hnext, hvoucher]
  have hget : t.arca.sent[n]? = some sent := by
    rw [ht]
    exact List.getElem?_concat_length
  have halive : Arca.alive t.clock sent := ⟨hfate, by omega⟩
  have hstep : step P t (.record n cae) = some { t with arca := a } := by
    simp [step, Arca.record, hget, halive, ha]
  refine ⟨a, leads_next .refl hstep, ?_, ?_⟩
  · obtain ⟨-, hsent', hvoucher'⟩ := issue_spec ha
    have hmem : { sent with fate := .recorded } ∈ a.sent := by
      rw [hsent', Arca.settle]
      refine List.mem_iff_getElem?.mpr ⟨n, ?_⟩
      rw [List.getElem?_modify, hget]
      simp
    have hheld : a.voucher sent.coordinates = some ⟨some sent.attempt, cae⟩ := by
      rw [hvoucher', Function.update_self]
    rw [Arca.honestCae_ok hresult]
    cases hcae : result.cae with
    | none => rfl
    | some x =>
      have hx : cae = x := by simp [cae, hcae]
      have hfound : a.sent.any (fun t => t.attempt == sent.attempt && t.fate == .recorded &&
          (a.voucher t.coordinates).any (·.cae == x)) = true := by
        refine List.any_eq_true.mpr ⟨_, hmem, ?_⟩
        change (_ && _ && (a.voucher sent.coordinates).any _) = true
        simp [hheld, hx]
      simp [hfound]
  · have hissued := unissued_issue (a := t.arca.settle n .recorded) ?_ ha
    · rw [ht] at hissued
      exact hissued
    · rw [ht]
      exact hun

theorem ticks_lead (P : Platform) (sys : Sys W) (n : Nat) :
    Leads (system P) Always sys { sys with clock := sys.clock + n } := by
  induction n with
  | zero => exact .refl
  | succ n ih => exact leads_next ih (a := .tick) rfl

/-- Where ARCA approves, a loop is what its worker does, with nobody else at work. -/
theorem loop_leads (harca : Approving arca) (hw : sys.worker w = ⟨some u, .idle⟩)
    (hfree : ∀ key, sys.locks key = none) (hlast : sys.arca.last = s.last) (hun : sys.arca.Unissued)
    (hclock : ∀ m ∈ ms, sys.clock ≤ now m) (hnow : ms.Pairwise fun m m' => now m ≤ now m') :
    ∃ clock a, Leads (system P) Always (sys.withLedger s.ledger)
      { sys.withLedger (ms.foldl (Loop.next P now arca u.view) s).ledger with
        clock := clock, arca := a } := by
  induction ms generalizing sys s with
  | nil => exact ⟨sys.clock, sys.arca, .refl⟩
  | cons m ms ih =>
    obtain ⟨hlater, hnow⟩ := List.pairwise_cons.mp hnow
    have hwait : Leads (system P) Always (sys.withLedger s.ledger)
        ({ sys with clock := now m }.withLedger s.ledger) := by
      have hticks := ticks_lead P (sys.withLedger s.ledger) (now m - sys.clock)
      have hm := hclock m List.mem_cons_self
      simpa [Sys.withLedger, Nat.add_sub_cancel' hm] using hticks
    have ha := approving_answerable P { sys with clock := now m } harca hun
    obtain ⟨a, hrequest, hq⟩ := requestCae_leads (s := { sys with clock := now m }) (L := s.ledger)
      (m := m) hw hfree ha
    have hnext : a.last = (s.next P now arca u.view m).last ∧ a.Unissued := by
      simp only [Loop.next, ← hlast]
      simp only at hq
      cases hc : (requestCae P (now m) u.view (arca sys.arca.last) s.ledger m).2 with
      | none =>
        rw [hc] at hq
        obtain rfl : a = sys.arca := hq
        exact ⟨rfl, hun⟩
      | some c =>
        rw [hc] at hq
        exact hq
    obtain ⟨clock, a', hrest⟩ := @ih (s.next P now arca u.view m)
      { sys with clock := now m, arca := a } hw hfree hnext.1 hnext.2 hlater hnow
    refine ⟨clock, a', leads_trans (leads_trans hwait ?_) hrest⟩
    simp only [Loop.next, ← hlast]
    exact hrequest

end Run

/-! ## Two invoices of the office -/

namespace Office

/-- Invoice `m` has number `m + 1`, and is dated on the day `day m`. -/
def queued (day : Nat → Nat) : View
  | .move m =>
    { toMoveForm := { form 1 (m + 1) with invoiceDate := some ⟨2026, 1, day m⟩ }
      displayName := "FA-B", state := .posted, arcaState := .pending }
  | .attempt _ => none
  | .certificate k =>
    { name := "arca", companyId := k, holderCuit := "20-12345678-6", environment := .testing,
      state := .active, privateKey := some ⟨7⟩, certificate := some (.pem ⟨7, none, 0, 1000000⟩),
      certDateEnd := some 1000000 }
  | k => rows k

def queue (day : Nat → Nat) : Ledger := ⟨⟨queued day, fun _ => 0⟩, 0, fun _ h => absurd h (Nat.not_lt_zero _)⟩

def approving : Arca.Replies := fun last =>
  ⟨fun line => .response ⟨none, some (last line)⟩, fun _ => approval "74000000000001"⟩

theorem approving_approves : Approving approving :=
  ⟨fun _ _ => rfl, fun _ _ => ⟨_, _, rfl, rfl⟩⟩

theorem queue_requestable (m : Nat) (hm : m = 0 ∨ m = 1) :
    Requestable platform 0 (queue fun _ => 15) m := by
  refine ⟨⟨⟨0, ⟨"20123456786", 1, 6⟩, m + 1⟩, ⟨.testing, 20123456786, 1, 6⟩, ⟨1, 1, 6⟩,
    { detail with cbteDesde := m + 1, cbteHasta := m + 1 }, ?_⟩, fun _ h => absurd h (Nat.not_lt_zero _)⟩
  rcases hm with rfl | rfl
  · exact ⟨by decide +kernel, by decide +kernel, rfl, rfl, by decide +kernel⟩
  · exact ⟨by decide +kernel, by decide +kernel, rfl, rfl, by decide +kernel⟩

end Office

theorem batch_in_order_two :
    Served (Office.queued fun _ => 15) (fun _ => 0) [0, 1] (Loop.callback Office.platform (fun _ => 0)
      Office.approving (Office.queue fun _ => 15) (fun _ => 0) [0, 1]) ∧
    Served (Office.queued fun _ => 15) (fun _ => 0) [0, 1] (Loop.cron Office.platform (fun _ => 0)
      Office.approving (Office.queue fun _ => 15) (fun _ => 0) [0, 1] 50) := by
  have hr : AllRequestable Office.platform (fun _ => 0) (Office.queue fun _ => 15) (fun _ => 0) [0, 1] :=
    fun _ _ m hm _ => Office.queue_requestable m (by simpa using hm)
  have hwaiting : ∀ m ∈ [0, 1], Waiting (Office.queue fun _ => 15).db.row m := by
    intro m _
    exact ⟨rfl, rfl, rfl⟩
  constructor
  · exact ((batch_in_order (κ := Nat).1 [0, 1] (by decide) hwaiting).2
      Office.approving_approves).mpr ⟨by unfold InOrder; decide +kernel, hr⟩
  · exact ((batch_in_order.2 id [0, 1] 50 (by decide) (by decide +kernel) (by decide +kernel)).2
      Office.approving_approves).mpr ⟨by decide +kernel, hr⟩

namespace Office

/-- Invoice 1, of number 2, has the earlier date. -/
abbrev inverted : Ledger := queue fun m => 15 - m

def handed (ms : List Nat) : Loop := .callback platform (fun _ => 0) approving inverted (fun _ => 0) ms

def searched (moves : List Nat) : Loop := .cron platform (fun _ => 0) approving inverted (fun _ => 0) moves 50

end Office

/-- The callback is handed number 2 before number 1, and the cron finds number 2 first.
Both times number 2 is refused for a gap in the numbering, and stays pending. -/
theorem batch_out_of_order :
    (¬ Served Office.inverted.db.row (fun _ => 0) [1, 0] (Office.handed [1, 0]) ∧
      ((Office.handed [1, 0]).ledger.db.row (.move 1) : Move).arcaState = .pending) ∧
    [1, 0].Pairwise (fun m m' => searchKey id Office.inverted.db.row m ≤
      searchKey id Office.inverted.db.row m') ∧
    ¬ Served Office.inverted.db.row (fun _ => 0) [1, 0] (Office.searched [1, 0]) ∧
    ((Office.searched [1, 0]).ledger.db.row (.move 1) : Move).arcaState = .pending := by
  have hout : ¬ InOrder Office.inverted.db.row [1, 0] := by
    unfold InOrder
    decide +kernel
  refine ⟨⟨fun h => hout ?_, by decide +kernel⟩, by decide +kernel, fun h => hout ?_, by decide +kernel⟩
  · have hattempted : (Office.handed [1, 0]).attempted = [1, 0] := fold_attempted
    exact hattempted ▸ h.inOrder
  · have hattempted : (Office.searched [1, 0]).attempted = [1, 0] := fold_attempted
    exact hattempted ▸ h.inOrder

end ArcaEdi
