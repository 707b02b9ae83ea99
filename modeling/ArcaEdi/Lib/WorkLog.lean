import Mathlib.Data.List.Induction

/-!
# Connections that commit along the way

A connection writes, commits and rolls back in any order. There are two accounts
of what becomes durable: the server's, kept event by event, and the one that is
read off the whole sequence afterwards. They agree.
-/

namespace WorkLog

universe u

variable {α : Type u}

/-- What happens to a transaction that goes on after it commits. -/
inductive Event (α : Type u)
  | write (a : α)
  | commit
  | rollback
  deriving DecidableEq, Repr

def Event.isCommit : Event α → Bool
  | .commit => true
  | .write _ | .rollback => false

/-! ## The server's account -/

/-- What the events made durable, and what is still open to be thrown away. -/
structure Ledger (α : Type u) where
  durable : List α := []
  pending : List α := []
  deriving DecidableEq, Repr

def Ledger.next (l : Ledger α) : Event α → Ledger α
  | .write a => { l with pending := l.pending ++ [a] }
  | .commit => ⟨l.durable ++ l.pending, []⟩
  | .rollback => { l with pending := [] }

def ledger (events : List (Event α)) : Ledger α := events.foldl Ledger.next {}


theorem ledger_snoc (events : List (Event α)) (e : Event α) :
    ledger (events ++ [e]) = (ledger events).next e := by
  simp [ledger]

/-! ## The account afterwards -/

/-- The next commit or rollback is a rollback. -/
def rollsBack : List (Event α) → Bool
  | [] | .commit :: _ => false
  | .rollback :: _ => true
  | .write _ :: rest => rollsBack rest

/-- The writes that no rollback took away. -/
def undiscarded : List (Event α) → List α
  | [] => []
  | .write a :: rest => if rollsBack rest then undiscarded rest else a :: undiscarded rest
  | .commit :: rest | .rollback :: rest => undiscarded rest

/-- The events up to the last commit, which is one of them. -/
def uptoLastCommit : List (Event α) → List (Event α)
  | [] => []
  | e :: rest => if (e :: rest).any Event.isCommit then e :: uptoLastCommit rest else []

theorem uptoLastCommit_none {events : List (Event α)} (h : events.any Event.isCommit = false) :
    uptoLastCommit events = [] := by
  cases events with
  | nil => rfl
  | cons e rest => rw [uptoLastCommit, h, if_neg Bool.false_ne_true]

theorem uptoLastCommit_snoc {events : List (Event α)} {e : Event α} (he : e.isCommit = false) :
    uptoLastCommit (events ++ [e]) = uptoLastCommit events := by
  induction events with
  | nil => simp [uptoLastCommit, he]
  | cons x rest ih => simp [uptoLastCommit, ih, he]

theorem uptoLastCommit_commit (events : List (Event α)) :
    uptoLastCommit (events ++ [.commit]) = events ++ [.commit] := by
  induction events with
  | nil => simp [uptoLastCommit, Event.isCommit]
  | cons x rest ih => simp [uptoLastCommit, ih, Event.isCommit]

/-! ## One more event -/

theorem rollsBack_write (events : List (Event α)) (a : α) :
    rollsBack (events ++ [.write a]) = rollsBack events := by
  induction events with
  | nil => rfl
  | cons e rest ih => cases e <;> simp [rollsBack, ih]

theorem rollsBack_commit (events : List (Event α)) :
    rollsBack (events ++ [.commit]) = rollsBack events := by
  induction events with
  | nil => rfl
  | cons e rest ih => cases e <;> simp [rollsBack, ih]

theorem rollsBack_rollback {events : List (Event α)} (h : events.any Event.isCommit = false) :
    rollsBack (events ++ [.rollback]) = true := by
  induction events with
  | nil => rfl
  | cons e rest ih => cases e <;> simp_all [rollsBack, Event.isCommit]

theorem rollsBack_uptoLastCommit {events : List (Event α)} (h : events.any Event.isCommit = true) :
    rollsBack (uptoLastCommit events) = rollsBack events ∧
      rollsBack (events ++ [.rollback]) = rollsBack events := by
  induction events with
  | nil => simp at h
  | cons e rest ih =>
    cases e with
    | commit => simp [uptoLastCommit, rollsBack, Event.isCommit]
    | rollback => simp [uptoLastCommit, rollsBack, h]
    | write a =>
      have hrest : rest.any Event.isCommit = true := by simpa [Event.isCommit] using h
      simp [uptoLastCommit, rollsBack, h, ih hrest]

theorem undiscarded_write (events : List (Event α)) (a : α) :
    undiscarded (events ++ [.write a]) = undiscarded events ++ [a] := by
  induction events with
  | nil => rfl
  | cons e rest ih =>
    cases e with
    | write b =>
      simp only [List.cons_append, undiscarded, rollsBack_write, ih]
      split <;> rfl
    | commit | rollback => exact ih

theorem undiscarded_commit (events : List (Event α)) :
    undiscarded (events ++ [.commit]) = undiscarded events := by
  induction events with
  | nil => rfl
  | cons e rest ih => cases e <;> simp [undiscarded, rollsBack_commit, ih]

theorem undiscarded_rollback (events : List (Event α)) :
    undiscarded (events ++ [.rollback]) = undiscarded (uptoLastCommit events) := by
  induction events with
  | nil => rfl
  | cons e rest ih =>
    by_cases hrest : rest.any Event.isCommit = true
    · have hany : (e :: rest).any Event.isCommit = true := by
        rw [List.any_cons, hrest, Bool.or_true]
      obtain ⟨hupto, hsame⟩ := rollsBack_uptoLastCommit hrest
      rw [List.cons_append, uptoLastCommit, hany, if_pos rfl]
      cases e with
      | write a => simp only [undiscarded, hupto, hsame, ih]
      | commit | rollback => exact ih
    · rw [Bool.not_eq_true] at hrest
      rw [uptoLastCommit_none hrest] at ih
      rw [List.cons_append, uptoLastCommit]
      cases e with
      | write a =>
        rw [undiscarded, rollsBack_rollback hrest, if_pos rfl, ih]
        simp [Event.isCommit, hrest, undiscarded]
      | commit => simpa [Event.isCommit, uptoLastCommit_none hrest, undiscarded] using ih
      | rollback => simpa [Event.isCommit, hrest, undiscarded] using ih

/-! ## The two accounts agree -/

theorem ledger_eq (events : List (Event α)) :
    (ledger events).durable = undiscarded (uptoLastCommit events) ∧
      (ledger events).durable ++ (ledger events).pending = undiscarded events := by
  induction events using List.reverseRecOn with
  | nil => exact ⟨rfl, rfl⟩
  | append_singleton events e ih =>
    obtain ⟨hdurable, hall⟩ := ih
    rw [ledger_snoc]
    cases e with
    | write a =>
      rw [uptoLastCommit_snoc rfl, undiscarded_write, ← hall, ← hdurable]
      exact ⟨rfl, (List.append_assoc _ _ _).symm⟩
    | commit =>
      rw [uptoLastCommit_commit, undiscarded_commit, ← hall]
      exact ⟨rfl, List.append_nil _⟩
    | rollback =>
      rw [uptoLastCommit_snoc rfl, undiscarded_rollback, ← hdurable]
      exact ⟨rfl, List.append_nil _⟩

theorem ledger_durable (events : List (Event α)) :
    (ledger events).durable = undiscarded (uptoLastCommit events) := (ledger_eq events).1

theorem ledger_all (events : List (Event α)) :
    (ledger events).durable ++ (ledger events).pending = undiscarded events := (ledger_eq events).2

end WorkLog
