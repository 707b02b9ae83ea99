import Mathlib.Logic.Function.Basic
import Mathlib.Data.Fintype.Basic
import ArcaEdi.Lib.Runs
import ArcaEdi.Lib.WorkLog

/-!
# The transactions that the protocol owns

`fiscal_transaction.py` in its dedicated mode. Each run of the context manager
has two connections: one holds the lock, the other works. Any number of sessions
run any bodies, nested in any way, and a body is what it does, action by action.
-/

namespace ArcaEdi.Fiscal

open Runs WorkLog

/-! ## States -/

inductive Exit
  | returned
  | raised
  /-- PostgreSQL refuses everything but a rollback from here on. -/
  | sqlFailed
  deriving DecidableEq, Repr

/-- How far a run of the context manager has come. -/
inductive Phase
  | body
  /-- The body is over. The work cursor is still open. -/
  | left (exit : Exit)
  /-- The work cursor is closed. The one that holds the lock is still open. -/
  | worked (exit : Exit)
  deriving DecidableEq, Repr

/-- One run of `fiscal_transaction`, known by its two connections. -/
structure Scope (α : Type) where
  id : Nat
  lockKey : Nat
  phase : Phase := .body
  /-- What the work transaction wrote and has not committed. -/
  pending : List α := []
  deriving DecidableEq, Repr

/-- The database server, and the sessions that run bodies. -/
structure Server (S α : Type) where
  /-- The advisory locks, each with the connection that holds it. -/
  locks : Nat → Option Nat
  /-- What is committed, each write with the connection that made it. -/
  durable : List (Nat × α)
  nextId : Nat
  /-- The runs that a session is in, innermost first. -/
  scopes : S → List (Scope α)

variable {S α : Type}

def Server.durableOf (s : Server S α) (id : Nat) : List α :=
  (s.durable.filter (·.1 = id)).map (·.2)

/-! ## `FiscalTransaction` -/

namespace Scope

def write (a : α) (f : Scope α) : Scope α := { f with pending := f.pending ++ [a] }

/-- The cursor has committed what was pending. -/
def checkpoint (f : Scope α) : Scope α := { f with pending := [] }

def discard (f : Scope α) : Scope α := { f with pending := [] }

/-- What the work cursor commits as it closes: all of it, or nothing after an exception. -/
def atClose (f : Scope α) : Exit → List α
  | .returned => f.pending
  | .raised | .sqlFailed => []

end Scope

/-! ## Steps -/

/-- What a session does, one statement at a time. -/
inductive Act (S α : Type)
  /-- The context manager is entered, up to its body. -/
  | enter (x : S) (lockKey : Nat)
  | write (x : S) (a : α)
  | checkpoint (x : S)
  | discard (x : S)
  /-- The body returns, or an exception leaves it. -/
  | leave (x : S) (exit : Exit)
  | closeWork (x : S)
  | closeLock (x : S)

namespace Server

variable [DecidableEq S]

/-- The innermost run of a session goes from `f` to `f'`, and commits `news`. -/
def work (s : Server S α) (x : S) (f f' : Scope α) (rest : List (Scope α)) (news : List α) :
    Server S α :=
  { s with
    durable := s.durable ++ news.map (f.id, ·)
    scopes := Function.update s.scopes x (f' :: rest) }

/-- Where the key is taken, it raises ArcaSequenceBusy and holds nothing. -/
def enter (s : Server S α) (x : S) (lockKey : Nat) : Option (Server S α) :=
  if (s.scopes x).head?.all (·.phase = .body) then
    match s.locks lockKey with
    | some _ => some s
    | none =>
      some { s with
        locks := Function.update s.locks lockKey (some s.nextId)
        nextId := s.nextId + 1
        scopes := Function.update s.scopes x ({ id := s.nextId, lockKey := lockKey } :: s.scopes x) }
  else none

/-- An action of the innermost body. -/
def inBody (s : Server S α) (x : S) (f' : Scope α → Scope α) (news : Scope α → List α) :
    Option (Server S α) :=
  match s.scopes x with
  | f :: rest => if f.phase = .body then some (s.work x f (f' f) rest (news f)) else none
  | [] => none

def closeWork (s : Server S α) (x : S) : Option (Server S α) :=
  match s.scopes x with
  | f :: rest =>
    match f.phase with
    | .left exit =>
      some (s.work x f { f with phase := .worked exit, pending := [] } rest (f.atClose exit))
    | .body | .worked _ => none
  | [] => none

/-- The lock's transaction ends, and PostgreSQL drops the lock with it. -/
def closeLock (s : Server S α) (x : S) : Option (Server S α) :=
  match s.scopes x with
  | f :: rest =>
    match f.phase with
    | .worked _ =>
      some { s with
        locks := fun key => if s.locks key = some f.id then none else s.locks key
        scopes := Function.update s.scopes x rest }
    | .body | .left _ => none
  | [] => none

end Server

variable [DecidableEq S]

def step (s : Server S α) : Act S α → Option (Server S α)
  | .enter x lockKey => s.enter x lockKey
  | .write x a => s.inBody x (Scope.write a) fun _ => []
  | .checkpoint x => s.inBody x Scope.checkpoint Scope.pending
  | .discard x => s.inBody x Scope.discard fun _ => []
  | .leave x exit => s.inBody x (fun f => { f with phase := .left exit }) fun _ => []
  | .closeWork x => s.closeWork x
  | .closeLock x => s.closeLock x

structure Initial (s : Server S α) : Prop where
  locks : ∀ key, s.locks key = none
  durable : s.durable = []
  scopes : ∀ x, s.scopes x = []

def system : Runs.System (Server S α) (Act S α) where
  init := Initial
  step := step

/-! ## What a run of the context manager is told -/

/-- One action, as the run that it falls to sees it. -/
inductive Deed (α : Type)
  /-- A write, a checkpoint or a discard of the body. -/
  | works (e : Event α)
  | leaves (exit : Exit)
  | closesWork
  | closesLock
  deriving DecidableEq, Repr

omit [DecidableEq S] in
/-- The session that acts on its innermost run, and what it does there. -/
def Act.deed : Act S α → Option (S × Deed α)
  | .enter _ _ => none
  | .write x a => some (x, .works (.write a))
  | .checkpoint x => some (x, .works .commit)
  | .discard x => some (x, .works .rollback)
  | .leave x exit => some (x, .leaves exit)
  | .closeWork x => some (x, .closesWork)
  | .closeLock x => some (x, .closesLock)

/-- The innermost run of the session that acts, and what the action is to it. -/
def told (s : Server S α) (a : Act S α) : Option (Nat × Deed α) :=
  a.deed.bind fun p => (s.scopes p.1).head?.map fun f => (f.id, p.2)

/-- What the actions of the server were to one run of the context manager, in order. -/
def deeds (s : Server S α) (acts : List (Act S α)) (id : Nat) : List (Deed α) :=
  ((seen system told s acts).filter (·.1 = id)).map (·.2)

/-! ## What a step can do -/

/-- What becomes of the innermost run, and what it commits. -/
inductive Works (f : Scope α) : Deed α → Scope α → List α → Prop
  | write {a : α} (hf : f.phase = .body) : Works f (.works (.write a)) (f.write a) []
  | checkpoint (hf : f.phase = .body) : Works f (.works .commit) f.checkpoint f.pending
  | discard (hf : f.phase = .body) : Works f (.works .rollback) f.discard []
  | leave {exit : Exit} (hf : f.phase = .body) :
      Works f (.leaves exit) { f with phase := .left exit } []
  | close {exit : Exit} (hf : f.phase = .left exit) :
      Works f .closesWork { f with phase := .worked exit, pending := [] } (f.atClose exit)

inductive Step (s : Server S α) : Act S α → Server S α → Prop
  | busy {x : S} {lockKey id : Nat} (hl : s.locks lockKey = some id) : Step s (.enter x lockKey) s
  | enter {x : S} {lockKey : Nat} (hl : s.locks lockKey = none) :
      Step s (.enter x lockKey) { s with
        locks := Function.update s.locks lockKey (some s.nextId)
        nextId := s.nextId + 1
        scopes := Function.update s.scopes x ({ id := s.nextId, lockKey := lockKey } :: s.scopes x) }
  | work {a : Act S α} {x : S} {f f' : Scope α} {d : Deed α} {rest : List (Scope α)} {news : List α}
      (hx : s.scopes x = f :: rest) (ha : a.deed = some (x, d)) (hw : Works f d f' news) :
      Step s a (s.work x f f' rest news)
  | closeLock {x : S} {f : Scope α} {rest : List (Scope α)} {exit : Exit}
      (hx : s.scopes x = f :: rest) (hf : f.phase = .worked exit) :
      Step s (.closeLock x) { s with
        locks := fun key => if s.locks key = some f.id then none else s.locks key
        scopes := Function.update s.scopes x rest }

variable {s s' : Server S α} {a : Act S α}

theorem step_inBody {x : S} {d : Deed α} {f' : Scope α → Scope α} {news : Scope α → List α}
    (ha : a.deed = some (x, d)) (hw : ∀ f, f.phase = .body → Works f d (f' f) (news f))
    (h : s.inBody x f' news = some s') : Step s a s' := by
  unfold Server.inBody at h
  split at h
  · next hx =>
    split at h <;> cases h
    exact .work hx ha (hw _ ‹_›)
  · cases h

theorem step_cases (h : step s a = some s') : Step s a s' := by
  cases a with
  | enter x lockKey =>
    simp only [step, Server.enter] at h
    split at h
    · split at h <;> cases h
      · exact .busy ‹_›
      · exact .enter ‹_›
    · cases h
  | write x a => exact step_inBody rfl (fun _ => .write) h
  | checkpoint x => exact step_inBody rfl (fun _ => .checkpoint) h
  | discard x => exact step_inBody rfl (fun _ => .discard) h
  | leave x exit => exact step_inBody rfl (fun _ => .leave) h
  | closeWork x =>
    simp only [step, Server.closeWork] at h
    split at h
    · split at h <;> cases h
      exact .work ‹_› rfl (.close ‹_›)
    · cases h
  | closeLock x =>
    simp only [step, Server.closeLock] at h
    split at h
    · split at h <;> cases h
      exact .closeLock ‹_› ‹_›
    · cases h

/-! ## What a run makes durable -/

/-- What a body whose work transaction has ended leaves behind. -/
def Exit.durable (events : List (Event α)) : Exit → List α
  | .returned => undiscarded events
  | .raised | .sqlFailed => undiscarded (uptoLastCommit events)

/-- The books of a run at each of its phases: what its connection made durable, what its
transaction holds, and what it was told so far. -/
inductive Books (durable pending : List α) : Phase → List (Deed α) → Prop
  | body {events : List (Event α)} (hd : durable = (ledger events).durable)
      (hp : pending = (ledger events).pending) : Books durable pending .body (events.map .works)
  | left {events : List (Event α)} {exit : Exit} (hd : durable = (ledger events).durable)
      (hp : pending = (ledger events).pending) :
      Books durable pending (.left exit) (events.map .works ++ [.leaves exit])
  | worked {events : List (Event α)} {exit : Exit} (hd : durable = exit.durable events) :
      Books durable pending (.worked exit) (events.map .works ++ [.leaves exit, .closesWork])

/-- The books of a run that is over. -/
def Balanced (durable : List α) (ds : List (Deed α)) : Prop :=
  ∃ events exit, ds = events.map .works ++ [.leaves exit, .closesWork, .closesLock] ∧
    durable = exit.durable events

section Books

variable {f f' : Scope α} {d : Deed α} {news durable pending : List α} {ds : List (Deed α)}

omit [DecidableEq S] in
theorem works_books (hw : Works f d f' news) (h : Books durable f.pending f.phase ds) :
    Books (durable ++ news) f'.pending f'.phase (ds ++ [d]) := by
  cases hw with
  | write hf | checkpoint hf | discard hf =>
    rw [hf] at h
    cases h with
    | @body events hd hp =>
      have hmap : ∀ e : Event α, events.map Deed.works ++ [.works e] = (events ++ [e]).map .works := by
        simp
      simp only [Scope.write, Scope.checkpoint, Scope.discard, hf, hmap]
      refine .body ?_ ?_ <;> simp [ledger_snoc, Ledger.next, hd, hp]
  | leave hf =>
    rw [hf] at h
    cases h with
    | body hd hp => exact .left (by rw [List.append_nil, hd]) hp
  | @close exit hf =>
    rw [hf] at h
    cases h with
    | left hd hp =>
      rw [List.append_assoc]
      refine .worked ?_
      rw [hd]
      cases exit with
      | returned => rw [Scope.atClose, hp, Exit.durable, ledger_all]
      | raised | sqlFailed => rw [Scope.atClose, List.append_nil, Exit.durable, ledger_durable]

theorem books_over {exit : Exit} (h : Books durable pending (.worked exit) ds) :
    Balanced durable (ds ++ [.closesLock]) := by
  cases h with
  | @worked events _ hd => exact ⟨events, exit, by rw [List.append_assoc]; rfl, hd⟩

theorem books_open {phase : Phase} (h : Books durable pending phase ds) : .closesLock ∉ ds := by
  cases h <;> simp

omit [DecidableEq S] in
theorem works_same (hw : Works f d f' news) : f'.id = f.id ∧ f'.lockKey = f.lockKey := by
  cases hw <;> exact ⟨rfl, rfl⟩

end Books

/-! ## The invariant -/

/-- Locks, runs and connections fit together. -/
structure Inv (s : Server S α) : Prop where
  /-- Every run holds its lock until its last cursor closes. -/
  held : ∀ x, ∀ f ∈ s.scopes x, s.locks f.lockKey = some f.id
  owned : ∀ key id, s.locks key = some id → ∃ x, ∃ f ∈ s.scopes x, f.id = id ∧ f.lockKey = key
  known : ∀ x, ∀ f ∈ s.scopes x, f.id < s.nextId
  distinct : ∀ x y, ∀ f ∈ s.scopes x, ∀ g ∈ s.scopes y, f.id = g.id → x = y
  nodup : ∀ x, ((s.scopes x).map (·.id)).Nodup
  fresh : ∀ p ∈ s.durable, p.1 < s.nextId

omit [DecidableEq S] in
theorem initial_inv (h : Initial s) : Inv s := by
  have hnone : ∀ x, ∀ f, f ∉ s.scopes x := by simp [h.scopes]
  refine ⟨fun x f hf => absurd hf (hnone x f), ?_, fun x f hf => absurd hf (hnone x f),
    fun x _ f hf => absurd hf (hnone x f), by simp [h.scopes], by simp [h.durable]⟩
  intro key id hkey
  rw [h.locks] at hkey
  cases hkey

theorem mem_update {β : Type} {scopes : S → List β} {x y : S} {l : List β} {f : β}
    (h : f ∈ Function.update scopes x l y) : (y = x ∧ f ∈ l) ∨ (y ≠ x ∧ f ∈ scopes y) := by
  by_cases hy : y = x
  · subst hy
    rw [Function.update_self] at h
    exact .inl ⟨rfl, h⟩
  · rw [Function.update_of_ne hy] at h
    exact .inr ⟨hy, h⟩

omit [DecidableEq S] in
theorem durableOf_nil (hfresh : ∀ p ∈ s.durable, p.1 < s.nextId) : s.durableOf s.nextId = [] := by
  have hnone : s.durable.filter (·.1 = s.nextId) = [] := by
    rw [List.filter_eq_nil_iff]
    intro p hp heq
    exact Nat.ne_of_lt (hfresh p hp) (of_decide_eq_true heq)
  rw [Server.durableOf, hnone, List.map_nil]

theorem inv_enter {x : S} {key : Nat} (hi : Inv s) (hl : s.locks key = none) :
    Inv { s with
      locks := Function.update s.locks key (some s.nextId)
      nextId := s.nextId + 1
      scopes := Function.update s.scopes x ({ id := s.nextId, lockKey := key } :: s.scopes x) } := by
  -- A run in the new state is the new one, or one of before with a smaller id.
  have hcases : ∀ {y : S} {f : Scope α},
      f ∈ Function.update s.scopes x ({ id := s.nextId, lockKey := key } :: s.scopes x) y →
        (y = x ∧ f = { id := s.nextId, lockKey := key }) ∨ f ∈ s.scopes y := by
    intro y f hf
    rcases mem_update hf with ⟨rfl, hf⟩ | ⟨-, hf⟩
    · rcases List.mem_cons.mp hf with hf | hf
      · exact .inl ⟨rfl, hf⟩
      · exact .inr hf
    · exact .inr hf
  refine ⟨?held, ?owned, ?known, ?distinct, ?nodup, ?fresh⟩
  case held =>
    intro y f hf
    rcases hcases hf with ⟨rfl, rfl⟩ | hf
    · exact Function.update_self ..
    · have hne : f.lockKey ≠ key := by
        intro he
        have hheld := hi.held y f hf
        rw [he, hl] at hheld
        cases hheld
      exact (Function.update_of_ne hne ..).trans (hi.held y f hf)
  case owned =>
    intro k id hk
    dsimp only at hk ⊢
    by_cases hkk : k = key
    · subst hkk
      rw [Function.update_self] at hk
      cases hk
      exact ⟨x, _, by rw [Function.update_self]; exact List.mem_cons_self, rfl, rfl⟩
    · rw [Function.update_of_ne hkk] at hk
      obtain ⟨y, f, hf, hid, hkey⟩ := hi.owned k id hk
      refine ⟨y, f, ?_, hid, hkey⟩
      by_cases hy : y = x
      · subst hy
        rw [Function.update_self]
        exact List.mem_cons_of_mem _ hf
      · rwa [Function.update_of_ne hy]
  case known =>
    intro y f hf
    rcases hcases hf with ⟨-, rfl⟩ | hf
    · exact Nat.lt_succ_self _
    · exact Nat.lt_succ_of_lt (hi.known y f hf)
  case distinct =>
    intro y z f hf g hg hfg
    rcases hcases hf with ⟨rfl, rfl⟩ | hf' <;> rcases hcases hg with ⟨rfl, rfl⟩ | hg'
    · rfl
    · exact absurd hfg.symm (Nat.ne_of_lt (hi.known z g hg'))
    · exact absurd hfg (Nat.ne_of_lt (hi.known y f hf'))
    · exact hi.distinct y z f hf' g hg' hfg
  case nodup =>
    intro y
    by_cases hy : y = x
    · subst hy
      simp only [Function.update_self, List.map_cons, List.nodup_cons]
      refine ⟨?_, hi.nodup y⟩
      intro hmem
      obtain ⟨f, hf, hid⟩ := List.mem_map.mp hmem
      exact absurd hid (Nat.ne_of_lt (hi.known y f hf))
    · simp only [Function.update_of_ne hy]
      exact hi.nodup y
  case fresh =>
    exact fun p hp => Nat.lt_succ_of_lt (hi.fresh p hp)

omit [DecidableEq S] in
theorem head_below {x : S} {f : Scope α} {rest : List (Scope α)} (hi : Inv s)
    (hx : s.scopes x = f :: rest) :
    f ∈ s.scopes x ∧ ∀ {g}, g ∈ rest → g ∈ s.scopes x ∧ g.id ≠ f.id := by
  rw [hx]
  refine ⟨List.mem_cons_self, fun hg => ⟨List.mem_cons_of_mem _ hg, fun he => ?_⟩⟩
  have hnd := hi.nodup x
  rw [hx, List.map_cons, List.nodup_cons] at hnd
  exact hnd.1 (he ▸ List.mem_map_of_mem hg)

theorem durableOf_work {x : S} {f f' : Scope α} {rest : List (Scope α)} {news : List α} (id : Nat) :
    (s.work x f f' rest news).durableOf id =
      s.durableOf id ++ if f.id = id then news else [] := by
  simp only [Server.work, Server.durableOf, List.filter_append, List.map_append]
  congr 1
  by_cases hid : f.id = id
  · have hall : ∀ p ∈ news.map (f.id, ·), decide (p.1 = id) = true := by simp [hid]
    rw [if_pos hid, List.filter_eq_self.mpr hall]
    simp
  · have hnone : ∀ p ∈ news.map (f.id, ·), ¬decide (p.1 = id) = true := by simp [hid]
    rw [if_neg hid, List.filter_eq_nil_iff.mpr hnone, List.map_nil]

theorem work_scopes {x y : S} {f f' g : Scope α} {rest : List (Scope α)} {news : List α} (hi : Inv s)
    (hx : s.scopes x = f :: rest) (hg : g ∈ (s.work x f f' rest news).scopes y) :
    (y = x ∧ g = f') ∨ (g ∈ s.scopes y ∧ g.id ≠ f.id) := by
  obtain ⟨hmem, hbelow⟩ := head_below hi hx
  rcases mem_update hg with ⟨rfl, hg'⟩ | ⟨hne, hg'⟩
  · rcases List.mem_cons.mp hg' with heq | hrest
    · exact .inl ⟨rfl, heq⟩
    · exact .inr (hbelow hrest)
  · exact .inr ⟨hg', fun he => hne (hi.distinct y x g hg' f hmem he)⟩

theorem inv_work {x : S} {f f' : Scope α} {d : Deed α} {rest : List (Scope α)} {news : List α}
    (hi : Inv s) (hx : s.scopes x = f :: rest) (hw : Works f d f' news) :
    Inv (s.work x f f' rest news) := by
  obtain ⟨hid, hkey⟩ := works_same hw
  obtain ⟨hmem, hbelow⟩ := head_below hi hx
  -- Every run in the new state stands for one of before with the same connections.
  have hold : ∀ {y : S} {g : Scope α}, g ∈ (s.work x f f' rest news).scopes y →
      ∃ h ∈ s.scopes y, h.id = g.id ∧ h.lockKey = g.lockKey := by
    intro y g hg
    rcases work_scopes hi hx hg with ⟨rfl, rfl⟩ | ⟨hg, -⟩
    · exact ⟨f, hmem, hid.symm, hkey.symm⟩
    · exact ⟨g, hg, rfl, rfl⟩
  refine ⟨?held, ?owned, ?known, ?distinct, ?nodup, ?fresh⟩
  case held =>
    intro y g hg
    obtain ⟨h, hh, hhid, hhkey⟩ := hold hg
    rw [← hhid, ← hhkey]
    exact hi.held y h hh
  case owned =>
    intro key id hk
    obtain ⟨y, g, hg, hgid, hgkey⟩ := hi.owned key id hk
    by_cases hy : y = x
    · subst hy
      rw [hx] at hg
      rcases List.mem_cons.mp hg with rfl | hg
      · exact ⟨y, f', by simp [Server.work], hid.trans hgid, hkey.trans hgkey⟩
      · exact ⟨y, g, by simp [Server.work, hg], hgid, hgkey⟩
    · exact ⟨y, g, by simpa [Server.work, hy] using hg, hgid, hgkey⟩
  case known =>
    intro y g hg
    obtain ⟨h, hh, hhid, -⟩ := hold hg
    exact hhid ▸ hi.known y h hh
  case distinct =>
    intro y z g hg h hh hgh
    obtain ⟨g', hg', hgid, -⟩ := hold hg
    obtain ⟨h', hh', hhid, -⟩ := hold hh
    exact hi.distinct y z g' hg' h' hh' (by rw [hgid, hhid, hgh])
  case nodup =>
    intro y
    have hnd := hi.nodup y
    by_cases hy : y = x
    · subst hy
      rw [hx] at hnd
      simpa [Server.work, hid] using hnd
    · simpa [Server.work, hy] using hnd
  case fresh =>
    intro p hp
    rcases List.mem_append.mp hp with hp | hp
    · exact hi.fresh p hp
    · obtain ⟨b, -, rfl⟩ := List.mem_map.mp hp
      exact hi.known x f hmem

theorem closed_scopes {x y : S} {f g : Scope α} {rest : List (Scope α)} (hi : Inv s)
    (hx : s.scopes x = f :: rest) (hg : g ∈ Function.update s.scopes x rest y) :
    g ∈ s.scopes y ∧ g.id ≠ f.id := by
  obtain ⟨hmem, hbelow⟩ := head_below hi hx
  rcases mem_update hg with ⟨rfl, hg'⟩ | ⟨hne, hg'⟩
  · exact hbelow hg'
  · exact ⟨hg', fun he => hne (hi.distinct y x g hg' f hmem he)⟩

theorem inv_closeLock {x : S} {f : Scope α} {rest : List (Scope α)} (hi : Inv s)
    (hx : s.scopes x = f :: rest) :
    Inv { s with
      locks := fun key => if s.locks key = some f.id then none else s.locks key
      scopes := Function.update s.scopes x rest } := by
  have hcases : ∀ {y : S} {g : Scope α}, g ∈ Function.update s.scopes x rest y →
      g ∈ s.scopes y ∧ g.id ≠ f.id := closed_scopes hi hx
  refine ⟨?held, ?owned, fun y g hg => hi.known y g (hcases hg).1, ?distinct, ?nodup, hi.fresh⟩
  case held =>
    intro y g hg
    obtain ⟨hg, hne⟩ := hcases hg
    simp only [hi.held y g hg, Option.some.injEq, hne, if_false]
  case owned =>
    intro key id hk
    dsimp only at hk ⊢
    split at hk
    · cases hk
    · next hne =>
      obtain ⟨y, g, hg, hgid, hgkey⟩ := hi.owned key id hk
      refine ⟨y, g, ?_, hgid, hgkey⟩
      by_cases hy : y = x
      · subst hy
        rw [hx] at hg
        rcases List.mem_cons.mp hg with rfl | hg
        · exact absurd (hgid ▸ hk) hne
        · rwa [Function.update_self]
      · rwa [Function.update_of_ne hy]
  case distinct =>
    exact fun y z g hg h hh => hi.distinct y z g (hcases hg).1 h (hcases hh).1
  case nodup =>
    intro y
    have hnd := hi.nodup y
    by_cases hy : y = x
    · subst hy
      rw [hx, List.map_cons, List.nodup_cons] at hnd
      simpa using hnd.2
    · simpa [hy] using hnd

theorem inv_step (hi : Inv s) (h : Step s a s') : Inv s' := by
  cases h with
  | busy => exact hi
  | enter hl => exact inv_enter hi hl
  | work hx _ hw => exact inv_work hi hx hw
  | closeLock hx _ => exact inv_closeLock hi hx

theorem reachable_inv {ok : Server S α → Act S α → Prop} (h : Reachable system ok s) : Inv s :=
  Runs.reachable_inv (fun _ => initial_inv) (fun _ _ _ _ _ hi h => inv_step hi (step_cases h)) h

/-! ## The books of every run -/

/-- What the runs were told, and what the next action is to one of them. -/
def noted (H : Nat → List (Deed α)) (news : Option (Nat × Deed α)) (id : Nat) : List (Deed α) :=
  H id ++ (news.toList.filter (·.1 = id)).map (·.2)

section Noted

variable {H : Nat → List (Deed α)} {id : Nat} {d : Deed α}

theorem noted_none : noted H none = H := funext fun _ => List.append_nil _

theorem noted_self : noted H (some (id, d)) id = H id ++ [d] := by simp [noted]

theorem noted_ne {i : Nat} (h : i ≠ id) : noted H (some (i, d)) id = H id := by simp [noted, h]

end Noted

theorem deeds_snoc {s₀ : Server S α} {acts : List (Act S α)} (h : Takes system Always s₀ acts s)
    (a : Act S α) : deeds s₀ (acts ++ [a]) = noted (deeds s₀ acts) (told s a) := by
  funext id
  simp only [deeds, noted, seen_snoc h, List.filter_append, List.map_append]

/-- The books of all runs, against the history of each. -/
structure Kept (s : Server S α) (H : Nat → List (Deed α)) : Prop where
  books : ∀ x, ∀ f ∈ s.scopes x, Books (s.durableOf f.id) f.pending f.phase (H f.id)
  ended : ∀ id, .closesLock ∈ H id → Balanced (s.durableOf id) (H id)
  unknown : ∀ id, s.nextId ≤ id → H id = []

theorem kept_enter {H : Nat → List (Deed α)} {x : S} {key : Nat} (hi : Inv s) (hk : Kept s H) :
    Kept { s with
      locks := Function.update s.locks key (some s.nextId)
      nextId := s.nextId + 1
      scopes := Function.update s.scopes x ({ id := s.nextId, lockKey := key } :: s.scopes x) } H := by
  refine ⟨fun y f hf => ?_, hk.ended, fun id hid => hk.unknown id (Nat.le_of_succ_le hid)⟩
  rcases mem_update hf with ⟨rfl, hf⟩ | ⟨-, hf⟩
  · rcases List.mem_cons.mp hf with rfl | hf
    · rw [hk.unknown _ (Nat.le_refl _)]
      exact @Books.body _ _ _ [] (durableOf_nil hi.fresh) rfl
    · exact hk.books y f hf
  · exact hk.books y f hf

theorem kept_work {H : Nat → List (Deed α)} {x : S} {f f' : Scope α} {d : Deed α}
    {rest : List (Scope α)} {news : List α} (hi : Inv s) (hk : Kept s H)
    (hx : s.scopes x = f :: rest) (hw : Works f d f' news) :
    Kept (s.work x f f' rest news) (noted H (some (f.id, d))) := by
  have hmem : f ∈ s.scopes x := (head_below hi hx).1
  refine ⟨fun y g hg => ?_, fun id hid => ?_, fun id hid => ?_⟩
  · rw [durableOf_work]
    rcases work_scopes hi hx hg with ⟨rfl, rfl⟩ | ⟨hg, hne⟩
    · rw [(works_same hw).1, if_pos rfl, noted_self]
      exact works_books hw (hk.books y f hmem)
    · rw [if_neg (Ne.symm hne), List.append_nil, noted_ne (Ne.symm hne)]
      exact hk.books y g hg
  · -- The run at work is not over, by its own books.
    by_cases hf : f.id = id
    · subst hf
      rw [noted_self] at hid
      exact absurd hid (books_open (works_books hw (hk.books x f hmem)))
    · rw [noted_ne hf] at hid ⊢
      rw [durableOf_work, if_neg hf, List.append_nil]
      exact hk.ended id hid
  · rw [noted_ne (Nat.ne_of_lt (Nat.lt_of_lt_of_le (hi.known x f hmem) hid))]
    exact hk.unknown id hid

theorem kept_closeLock {H : Nat → List (Deed α)} {x : S} {f : Scope α} {rest : List (Scope α)}
    {exit : Exit} (hi : Inv s) (hk : Kept s H) (hx : s.scopes x = f :: rest)
    (hf : f.phase = .worked exit) :
    Kept { s with
      locks := fun key => if s.locks key = some f.id then none else s.locks key
      scopes := Function.update s.scopes x rest } (noted H (some (f.id, .closesLock))) := by
  have hmem : f ∈ s.scopes x := (head_below hi hx).1
  refine ⟨fun y g hg => ?_, fun id hid => ?_, fun id hid => ?_⟩
  · obtain ⟨hg, hne⟩ := closed_scopes hi hx hg
    rw [noted_ne (Ne.symm hne)]
    exact hk.books y g hg
  · by_cases hfid : f.id = id
    · subst hfid
      rw [noted_self]
      exact books_over (hf ▸ hk.books x f hmem)
    · rw [noted_ne hfid] at hid ⊢
      exact hk.ended id hid
  · rw [noted_ne (Nat.ne_of_lt (Nat.lt_of_lt_of_le (hi.known x f hmem) hid))]
    exact hk.unknown id hid

omit [DecidableEq S] in
theorem told_head {x : S} {f : Scope α} {d : Deed α} {rest : List (Scope α)}
    (hx : s.scopes x = f :: rest) (ha : a.deed = some (x, d)) : told s a = some (f.id, d) := by
  simp [told, ha, hx]

theorem kept_step {H : Nat → List (Deed α)} (hi : Inv s) (hk : Kept s H) (h : Step s a s') :
    Kept s' (noted H (told s a)) := by
  cases h with
  | busy => exact noted_none.symm ▸ hk
  | enter => exact noted_none.symm ▸ kept_enter hi hk
  | work hx ha hw => exact told_head hx ha ▸ kept_work hi hk hx hw
  | @closeLock x f rest exit hx hf =>
    exact told_head (a := .closeLock x) hx rfl ▸ kept_closeLock hi hk hx hf

theorem takes_kept {s₀ : Server S α} {acts : List (Act S α)} (h₀ : Initial s₀)
    (h : Takes system Always s₀ acts s) : Kept s (deeds s₀ acts) := by
  refine takes_inv (P := fun acts s => Kept s (deeds s₀ acts)) ?_ ?_ h
  · refine ⟨fun x f hf => ?_, by simp [deeds, seen], fun _ _ => rfl⟩
    rw [h₀.scopes] at hf
    cases hf
  · intro acts t a t' ht _ hk hs
    rw [deeds_snoc ht]
    exact kept_step (reachable_inv (takes_reachable (.init h₀) ht)) hk (step_cases hs)

/-! ## The contract of `fiscal_transaction` -/

/-- While a run of the context manager has a cursor open, nobody else enters with
its key. Once its last cursor closes, the key is free. What it leaves durable is
all that its body wrote and did not discard, or what of that came before its last
checkpoint where an exception left the body. -/
theorem fiscal_transaction_contract {s₀ : Server S α} {acts : List (Act S α)} (h₀ : Initial s₀)
    (h : Takes system Always s₀ acts s) :
    (∀ x, ∀ f ∈ s.scopes x, s.locks f.lockKey = some f.id ∧
      ∀ y s', step s (.enter y f.lockKey) = some s' → s' = s) ∧
    (∀ x s', step s (.closeLock x) = some s' →
      ∃ f rest, s.scopes x = f :: rest ∧ s'.scopes x = rest ∧ s'.locks f.lockKey = none) ∧
    (∀ key id, s.locks key = some id → ∃ x, ∃ f ∈ s.scopes x, f.id = id ∧ f.lockKey = key) ∧
    ∀ id, .closesLock ∈ deeds s₀ acts id → ∃ events exit,
      deeds s₀ acts id = events.map .works ++ [.leaves exit, .closesWork, .closesLock] ∧
      s.durableOf id =
        if exit = .returned then undiscarded events else undiscarded (uptoLastCommit events) := by
  have hi := reachable_inv (takes_reachable (.init h₀) h)
  refine ⟨?_, ?_, hi.owned, ?_⟩
  · intro x f hf
    have hheld := hi.held x f hf
    refine ⟨hheld, fun y s' hs => ?_⟩
    simp only [step, Server.enter, hheld] at hs
    split at hs <;> cases hs
    rfl
  · intro x s' hs
    simp only [step, Server.closeLock] at hs
    split at hs
    · next f rest hx =>
      split at hs <;> cases hs
      refine ⟨f, rest, hx, Function.update_self .., ?_⟩
      exact if_pos (hi.held x f (hx ▸ List.mem_cons_self))
    · cases hs
  · intro id hid
    obtain ⟨events, exit, hds, hb⟩ := (takes_kept h₀ h).ended id hid
    refine ⟨events, exit, hds, ?_⟩
    rw [hb]
    cases exit <;> rfl

/-- A body that commits, discards, enters another transaction and fails. -/
def nested : List (Act (Fin 2) Nat) :=
  [.enter 0 7, .write 0 1, .checkpoint 0, .write 0 2, .discard 0, .enter 1 7, .enter 0 8, .write 0 3,
    .leave 0 .returned, .closeWork 0, .closeLock 0, .write 0 4, .leave 0 .sqlFailed, .closeWork 0,
    .closeLock 0]

def empty : Server (Fin 2) Nat := ⟨fun _ => none, [], 0, fun _ => []⟩

theorem empty_initial : Initial empty := ⟨fun _ => rfl, rfl, fun _ => rfl⟩

theorem fiscal_transaction_contract_nested :
    deeds empty nested 0 = [.works (.write 1), .works .commit, .works (.write 2), .works .rollback,
      .works (.write 4), .leaves .sqlFailed, .closesWork, .closesLock] ∧
    ∃ s : Server (Fin 2) Nat, s.durable = [(0, 1), (1, 3)] ∧
      ∀ id, .closesLock ∈ deeds empty nested id → ∃ events exit,
        deeds empty nested id = events.map .works ++ [.leaves exit, .closesWork, .closesLock] ∧
        s.durableOf id =
          if exit = .returned then undiscarded events else undiscarded (uptoLastCommit events) := by
  have hany : (run system Always empty nested).any (fun s => s.durable == [(0, 1), (1, 3)]) = true := by
    decide +kernel
  obtain ⟨s, hs, hp⟩ := run_any hany
  exact ⟨by decide +kernel, s, eq_of_beq hp,
    (fiscal_transaction_contract empty_initial (run_takes hs)).2.2.2⟩

end ArcaEdi.Fiscal
