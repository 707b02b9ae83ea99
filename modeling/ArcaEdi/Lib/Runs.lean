import Mathlib.Logic.Relation

/-!
# Runs whose steps meet a condition

A system is a set of initial states and a step function. `Reachable` is every
state that a run can reach when each of its steps meets a condition `ok`, which
reads the state before the step and the action.
-/

namespace Runs

structure System (σ α : Type*) where
  init : σ → Prop
  step : σ → α → Option σ

variable {σ α : Type*} {S : System σ α} {ok ok' : σ → α → Prop} {s s' t : σ} {a : α}

/-- The states of the runs whose every step meets the condition. -/
inductive Reachable (S : System σ α) (ok : σ → α → Prop) : σ → Prop
  | init {s : σ} (h : S.init s) : Reachable S ok s
  | step {s s' : σ} {a : α} (h : Reachable S ok s) (hok : ok s a) (hs : S.step s a = some s') :
      Reachable S ok s'

/-- `t` follows `s` by steps that meet the condition. -/
inductive Leads (S : System σ α) (ok : σ → α → Prop) (s : σ) : σ → Prop
  | refl : Leads S ok s s
  | step {t t' : σ} {a : α} (h : Leads S ok s t) (hok : ok t a) (hs : S.step t a = some t') :
      Leads S ok s t'

/-- The invariant rule. The step may use that its start is reachable. -/
theorem reachable_inv {P : σ → Prop} (hinit : ∀ s, S.init s → P s)
    (hstep : ∀ s a s', Reachable S ok s → ok s a → P s → S.step s a = some s' → P s')
    (h : Reachable S ok s) : P s := by
  induction h with
  | init h => exact hinit _ h
  | step h hok hs ih => exact hstep _ _ _ h hok ih hs

theorem reachable_mono
    (hmono : ∀ s a, Reachable S ok s → Reachable S ok' s → ok s a → ok' s a)
    (h : Reachable S ok s) : Reachable S ok' s := by
  induction h with
  | init h => exact .init h
  | step h hok hs ih => exact .step ih (hmono _ _ h ih hok) hs

theorem leads_trans {u : σ} (h : Leads S ok s t) (hu : Leads S ok t u) : Leads S ok s u := by
  induction hu with
  | refl => exact h
  | step _ hok hs ih => exact .step ih hok hs

theorem leads_reachable (hs : Reachable S ok s) (h : Leads S ok s t) : Reachable S ok t := by
  induction h with
  | refl => exact hs
  | step _ hok hstep ih => exact .step ih hok hstep

theorem leads_mono (hmono : ∀ s a, Reachable S ok s → ok s a → ok' s a) (hs : Reachable S ok s)
    (h : Leads S ok s t) : Leads S ok' s t := by
  induction h with
  | refl => exact .refl
  | step h hok hstep ih => exact .step ih (hmono _ _ (leads_reachable hs h) hok) hstep

theorem leads_keep {P : σ → Prop} (hs : Reachable S ok s)
    (hstep : ∀ t a t', Reachable S ok t → ok t a → P t → S.step t a = some t' → P t')
    (h : Leads S ok s t) (hP : P s) : P t := by
  induction h with
  | refl => exact hP
  | step h hok hs' ih => exact hstep _ _ _ (leads_reachable hs h) hok ih hs'

/-- The condition of runs that are not restricted. -/
def Always (_ : σ) (_ : α) : Prop := True

instance (s : σ) (a : α) : Decidable (Always s a) := isTrue trivial

/-! ## Following a list of actions -/

/-- The actions, in this order, lead from one state to the other. -/
inductive Takes (S : System σ α) (ok : σ → α → Prop) : σ → List α → σ → Prop
  | nil {s : σ} : Takes S ok s [] s
  | cons {s t u : σ} {a : α} {rest : List α} (hok : ok s a) (hs : S.step s a = some t)
      (h : Takes S ok t rest u) : Takes S ok s (a :: rest) u

theorem takes_append {u : σ} {acts rest : List α} (h : Takes S ok s acts t)
    (h' : Takes S ok t rest u) : Takes S ok s (acts ++ rest) u := by
  induction h with
  | nil => exact h'
  | cons hok hs _ ih => exact .cons hok hs (ih h')

theorem takes_reachable {acts : List α} (hr : Reachable S ok s) (h : Takes S ok s acts t) :
    Reachable S ok t := by
  induction h with
  | nil => exact hr
  | cons hok hs _ ih => exact ih (hr.step hok hs)

theorem takes_inv {P : List α → σ → Prop} {acts : List α} (hnil : P [] s)
    (hstep : ∀ acts t a t', Takes S ok s acts t → ok t a → P acts t → S.step t a = some t' →
      P (acts ++ [a]) t') (h : Takes S ok s acts t) : P acts t := by
  suffices hall : ∀ {u v acts rest}, Takes S ok s acts u → P acts u → Takes S ok u rest v →
      P (acts ++ rest) v from hall .nil hnil h
  intro u v acts rest hu hP ht
  induction ht generalizing acts with
  | nil => rwa [List.append_nil]
  | cons hok hs _ ih =>
    rw [List.append_cons]
    exact ih (takes_append hu (.cons hok hs .nil)) (hstep _ _ _ _ hu hok hP hs)

/-! ## What is seen along a run -/

variable {β : Type*} {see : σ → α → Option β}

/-- What an observer notes of the actions, in order. It knows the state before each of them. -/
def seen (S : System σ α) (see : σ → α → Option β) : σ → List α → List β
  | _, [] => []
  | s, a :: rest => (see s a).toList ++ (S.step s a).elim [] (seen S see · rest)

theorem seen_snoc {acts : List α} (h : Takes S ok s acts t) (a : α) :
    seen S see s (acts ++ [a]) = seen S see s acts ++ (see t a).toList := by
  induction h with
  | @nil s => cases hs : S.step s a <;> simp [seen, hs]
  | cons _ hs _ ih => simp only [List.cons_append, seen, hs, Option.elim_some, ih, List.append_assoc]

/-! ## Running a list of actions -/

/-- Runs the actions in order. It stops where the condition fails or the step is refused. -/
def run (S : System σ α) (ok : σ → α → Prop) [∀ s a, Decidable (ok s a)] : σ → List α → Option σ
  | s, [] => some s
  | s, a :: rest => if ok s a then (S.step s a).bind (run S ok · rest) else none

theorem run_leads [∀ s a, Decidable (ok s a)] {acts : List α} (h : run S ok s acts = some t) :
    Leads S ok s t := by
  suffices hall : ∀ u, Leads S ok s u → run S ok u acts = some t → Leads S ok s t from
    hall s .refl h
  clear h
  induction acts with
  | nil =>
    intro u hu h
    simp only [run, Option.some.injEq] at h
    exact h ▸ hu
  | cons a rest ih =>
    intro u hu h
    rw [run] at h
    split at h
    · next hok =>
      obtain ⟨v, hv, hrest⟩ := Option.bind_eq_some_iff.mp h
      exact ih v (.step hu hok hv) hrest
    · exact absurd h (by simp)

theorem run_takes [∀ s a, Decidable (ok s a)] {acts : List α} (h : run S ok s acts = some t) :
    Takes S ok s acts t := by
  induction acts generalizing s with
  | nil =>
    cases h
    exact .nil
  | cons a rest ih =>
    rw [run] at h
    split at h
    · next hok =>
      obtain ⟨v, hv, hrest⟩ := Option.bind_eq_some_iff.mp h
      exact .cons hok hv (ih hrest)
    · cases h

theorem run_any [∀ s a, Decidable (ok s a)] {acts : List α} {p : σ → Bool}
    (h : (run S ok s acts).any p = true) : ∃ t, run S ok s acts = some t ∧ p t = true := by
  cases ht : run S ok s acts with
  | none => simp [ht] at h
  | some t => exact ⟨t, rfl, by simpa [ht] using h⟩

theorem run_reachable [∀ s a, Decidable (ok s a)] {acts : List α} (hs : Reachable S ok s)
    (h : run S ok s acts = some t) : Reachable S ok t :=
  leads_reachable hs (run_leads h)

/-- A state that a run reaches, found by evaluation. -/
theorem run_reaches [∀ s a, Decidable (ok s a)] {acts : List α} {p : σ → Bool} (hs : S.init s)
    (h : (run S ok s acts).any p = true) : ∃ t, Reachable S ok t ∧ p t = true := by
  obtain ⟨t, hrun, hp⟩ := run_any h
  exact ⟨t, run_reachable (.init hs) hrun, hp⟩

theorem run_reaches_then [∀ s a, Decidable (ok s a)] {acts rest : List α} {p : σ → σ → Bool}
    (hs : S.init s)
    (h : ((run S ok s acts).any fun t => (run S ok t rest).any (p t)) = true) :
    ∃ t u, Reachable S ok t ∧ Leads S ok t u ∧ p t u = true := by
  obtain ⟨t, hrun, ht⟩ := run_any h
  obtain ⟨u, hrest, hp⟩ := run_any ht
  exact ⟨t, u, run_reachable (.init hs) hrun, run_leads hrest, hp⟩

end Runs
