import ArcaEdi.Lib.Raise

/-!
# Scripts on one transaction

A script works on a copy of its database until it commits. What it has not committed
when it ends is lost, and it makes no difference whether it returned or raised.
-/

universe u

structure Session (D : Type u) where
  database : D
  /-- The database as the transaction of the script sees it. -/
  work : D

/-- A script reads and writes its transaction, and may raise. -/
abbrev Script (ε D α : Type u) := EStateM ε (Session D) α

namespace Script

variable {ε D α β : Type u}

/-- One statement. What raises writes nothing. -/
def step (f : D → Except ε (α × D)) : Script ε D α := fun s =>
  match f s.work with
  | .ok (a, work) => .ok a { s with work }
  | .error e => .error e s

/-- A step that writes nothing. -/
def reading (f : D → Except ε α) : Script ε D α := step fun work => do return (← f work, work)

/-- A step that returns nothing. -/
def writing (f : D → Except ε D) : Script ε D PUnit := step fun work => do return (⟨⟩, ← f work)

def commit : Script ε D PUnit := fun s => .ok ⟨⟩ { s with database := s.work }

/-- What a script that runs alone answers, and the database that it leaves. -/
def outcome (x : Script ε D α) (database : D) : Except ε α × D :=
  match x ⟨database, database⟩ with
  | .ok a s => (.ok a, s.database)
  | .error e s => (.error e, s.database)

variable {x : Script ε D α} {f : α → Script ε D β} {s s' : Session D}

/-! ## Scripts that return -/

theorem bind_eq_ok {b : β} : (x >>= f) s = .ok b s' ↔ ∃ a s₁, x s = .ok a s₁ ∧ f a s₁ = .ok b s' := by
  simp only [bind, EStateM.bind]
  cases x s with
  | error e s₁ => simp
  | ok a s₁ =>
    simp only [EStateM.Result.ok.injEq]
    constructor
    · intro h
      exact ⟨a, s₁, ⟨rfl, rfl⟩, h⟩
    · rintro ⟨_, _, ⟨rfl, rfl⟩, h⟩
      exact h

theorem step_eq_ok {g : D → Except ε (α × D)} {a : α} :
    step g s = .ok a s' ↔ ∃ work, g s.work = .ok (a, work) ∧ s' = { s with work } := by
  unfold step
  cases g s.work with
  | error e => simp
  | ok r =>
    simp only [EStateM.Result.ok.injEq, Except.ok.injEq]
    constructor
    · rintro ⟨rfl, rfl⟩
      exact ⟨r.2, rfl, rfl⟩
    · rintro ⟨work, rfl, rfl⟩
      exact ⟨rfl, rfl⟩

/-! Each kind of step, at the head of a script. -/

theorem bind_step_eq_ok {g : D → Except ε (α × D)} {b : β} :
    (step g >>= f) s = .ok b s' ↔
      ∃ a work, g s.work = .ok (a, work) ∧ f a { s with work } = .ok b s' := by
  simp only [bind_eq_ok, step_eq_ok]
  constructor
  · rintro ⟨a, s₁, ⟨work, hg, rfl⟩, hf⟩
    exact ⟨a, work, hg, hf⟩
  · rintro ⟨a, work, hg, hf⟩
    exact ⟨a, _, ⟨work, hg, rfl⟩, hf⟩

theorem bind_reading_eq_ok {g : D → Except ε α} {b : β} :
    (reading g >>= f) s = .ok b s' ↔ ∃ a, g s.work = .ok a ∧ f a s = .ok b s' := by
  simp only [reading, bind_step_eq_ok, Raise.bind_eq_ok, Raise.pure_eq_ok, Prod.mk.injEq]
  constructor
  · rintro ⟨a, work, ⟨_, hg, rfl, rfl⟩, hf⟩
    exact ⟨_, hg, hf⟩
  · rintro ⟨a, hg, hf⟩
    exact ⟨a, s.work, ⟨a, hg, rfl, rfl⟩, hf⟩

theorem bind_writing_eq_ok {g : D → Except ε D} {h : PUnit → Script ε D β} {b : β} :
    (writing g >>= h) s = .ok b s' ↔ ∃ work, g s.work = .ok work ∧ h ⟨⟩ { s with work } = .ok b s' := by
  simp only [writing, bind_step_eq_ok]
  constructor
  · rintro ⟨_, work, hcall, hf⟩
    obtain ⟨_, hg, hsame⟩ := Raise.bind_eq_ok.mp hcall
    obtain ⟨-, rfl⟩ := Prod.mk.inj (Raise.pure_eq_ok.mp hsame)
    exact ⟨_, hg, hf⟩
  · rintro ⟨work, hg, hf⟩
    exact ⟨⟨⟩, work, Raise.bind_eq_ok.mpr ⟨work, hg, rfl⟩, hf⟩

theorem commit_eq_ok {a : PUnit} :
    (commit : Script ε D PUnit) s = .ok a s' ↔ s' = { s with database := s.work } := by
  simp [commit, eq_comm]

/-! ## One commit, at the end -/

/-- The database that stands once a script is over. -/
def left : EStateM.Result ε (Session D) α → D
  | .ok _ s | .error _ s => s.database

structure Uncommitted (x : Script ε D α) : Prop where
  left : ∀ s, left (x s) = s.database

/-- All of the work is committed if the script returns, and none if it raises. -/
structure Atomic (x : Script ε D α) : Prop where
  left : ∀ s, left (x s) = match x s with
    | .ok _ s' => s'.work
    | .error _ _ => s.database

theorem uncommitted_step (g : D → Except ε (α × D)) : Uncommitted (step g) where
  left s := by
    unfold step
    split <;> rfl

theorem uncommitted_reading (g : D → Except ε α) : Uncommitted (reading g) := uncommitted_step _
theorem uncommitted_writing (g : D → Except ε D) : Uncommitted (writing g) := uncommitted_step _

theorem atomic_commit : Atomic (commit : Script ε D PUnit) := ⟨fun _ => rfl⟩

theorem Uncommitted.bind (hx : Uncommitted x) (hf : ∀ a, Atomic (f a)) : Atomic (x >>= f) where
  left s := by
    have hs := hx.left s
    simp only [Bind.bind, EStateM.bind]
    cases hxs : x s with
    | error e s₁ => rwa [hxs] at hs
    | ok a s₁ =>
      have hkept : s₁.database = s.database := by rwa [hxs] at hs
      have hs₁ := (hf a).left s₁
      rwa [hkept] at hs₁

theorem Atomic.outcome (hx : Atomic x) (database : D) :
    (∃ e, x.outcome database = (.error e, database)) ∨
      ∃ a s, x ⟨database, database⟩ = .ok a s ∧ x.outcome database = (.ok a, s.work) := by
  have h := hx.left ⟨database, database⟩
  unfold Script.outcome
  cases hs : x ⟨database, database⟩ with
  | error e s =>
    rw [hs] at h
    exact .inl ⟨e, congrArg (Prod.mk (Except.error e)) h⟩
  | ok a s =>
    rw [hs] at h
    exact .inr ⟨a, s, rfl, congrArg (Prod.mk (Except.ok a)) h⟩

end Script
