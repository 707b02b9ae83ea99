import ArcaEdi.Lib.Runs

/-!
# Refinement

A specification is a set of initial states and a relation between a state and the
next. A system refines it when a view of its states follows that relation, by any
number of steps for each step of its own.
-/

namespace Runs

structure Spec (τ : Type*) where
  init : τ → Prop
  next : τ → τ → Prop

namespace Spec

variable {τ : Type*} {A : Spec τ} {t t' : τ}

abbrev Follows (A : Spec τ) : τ → τ → Prop := Relation.ReflTransGen A.next

/-- The specification can come to the state. -/
def Allows (A : Spec τ) (t : τ) : Prop := ∃ t₀, A.init t₀ ∧ A.Follows t₀ t

theorem follows_keep {P : τ → Prop} (hnext : ∀ t t', P t → A.next t t' → P t') (h : A.Follows t t')
    (ht : P t) : P t' := by
  induction h with
  | refl => exact ht
  | tail _ hn ih => exact hnext _ _ ih hn

theorem allows_inv {P : τ → Prop} (hinit : ∀ t, A.init t → P t)
    (hnext : ∀ t t', P t → A.next t t' → P t') (h : A.Allows t) : P t := by
  obtain ⟨t₀, h₀, hf⟩ := h
  exact follows_keep hnext hf (hinit t₀ h₀)

end Spec

variable {σ α τ : Type*} {S : System σ α} {ok : σ → α → Prop} {A : Spec τ} {f : σ → τ} {s t : σ}

/-- Each step of the system is some steps of the specification, seen through `f`. -/
structure Refines (S : System σ α) (ok : σ → α → Prop) (A : Spec τ) (f : σ → τ) : Prop where
  init : ∀ s, S.init s → A.init (f s)
  step : ∀ s a s', Reachable S ok s → ok s a → S.step s a = some s' → A.Follows (f s) (f s')

theorem Refines.leads (h : Refines S ok A f) (hs : Reachable S ok s) (ht : Leads S ok s t) :
    A.Follows (f s) (f t) := by
  induction ht with
  | refl => exact .refl
  | step hu hok hstep ih => exact ih.trans (h.step _ _ _ (leads_reachable hs hu) hok hstep)

theorem Refines.allows (h : Refines S ok A f) (hs : Reachable S ok s) : A.Allows (f s) := by
  induction hs with
  | init hi => exact ⟨_, h.init _ hi, .refl⟩
  | step hr hok hstep ih =>
    obtain ⟨t₀, h₀, hf⟩ := ih
    exact ⟨t₀, h₀, hf.trans (h.step _ _ _ hr hok hstep)⟩

/-- What every step of the specification keeps, every run of the system keeps. -/
theorem Refines.inv {P : τ → Prop} (h : Refines S ok A f) (hinit : ∀ t, A.init t → P t)
    (hnext : ∀ t t', P t → A.next t t' → P t') (hs : Reachable S ok s) : P (f s) :=
  Spec.allows_inv hinit hnext (h.allows hs)

/-! ## Simulation -/

variable {β : Type*} {T : System τ β} {R : σ → τ → Prop}

/-- Related states stay related: the second system answers each step of the first by a run. -/
structure Simulates (S : System σ α) (ok : σ → α → Prop) (T : System τ β) (R : σ → τ → Prop) :
    Prop where
  init : ∀ s, S.init s → ∃ t, T.init t ∧ R s t
  step : ∀ s a s' t, Reachable S ok s → ok s a → Reachable T Always t → R s t →
    S.step s a = some s' → ∃ t', Leads T Always t t' ∧ R s' t'

theorem Simulates.leads {u : τ} (h : Simulates S ok T R) (hs : Reachable S ok s)
    (hu : Reachable T Always u) (hR : R s u) (ht : Leads S ok s t) :
    ∃ u', Leads T Always u u' ∧ R t u' := by
  induction ht with
  | refl => exact ⟨u, .refl, hR⟩
  | step hv hok hstep ih =>
    obtain ⟨u', hu', hR'⟩ := ih
    obtain ⟨u'', hu'', hR''⟩ :=
      h.step _ _ _ _ (leads_reachable hs hv) hok (leads_reachable hu hu') hR' hstep
    exact ⟨u'', leads_trans hu' hu'', hR''⟩

theorem Simulates.reachable (h : Simulates S ok T R) (hs : Reachable S ok s) :
    ∃ u, Reachable T Always u ∧ R s u := by
  induction hs with
  | init hi =>
    obtain ⟨u, hu, hR⟩ := h.init _ hi
    exact ⟨u, .init hu, hR⟩
  | step hr hok hstep ih =>
    obtain ⟨u, hu, hR⟩ := ih
    obtain ⟨u', hu', hR'⟩ := h.step _ _ _ _ hr hok hu hR hstep
    exact ⟨u', leads_reachable hu hu', hR'⟩

end Runs
