/-!
# Computations that may raise

When a chain of calls returns, each call in it returned. `OnlyRaises p` says that
a call raises nothing but what `p` allows.
-/

namespace Raise

universe u

variable {ε α β : Type u}

theorem bind_eq_ok {x : Except ε α} {f : α → Except ε β} {b : β} :
    (x >>= f) = .ok b ↔ ∃ a, x = .ok a ∧ f a = .ok b := by
  cases x <;> simp [bind, Except.bind]

theorem pure_eq_ok {a b : α} : (pure a : Except ε α) = .ok b ↔ a = b := by
  simp [pure, Except.pure]

theorem map_eq_ok {f : α → β} {x : Except ε α} {b : β} :
    (f <$> x) = .ok b ↔ ∃ a, x = .ok a ∧ f a = b := by
  cases x <;> simp [Functor.map, Except.map]

theorem throw_ne_ok {e : ε} {b : α} : (throw e : Except ε α) ≠ .ok b := by
  simp [throw, throwThe, MonadExceptOf.throw]

theorem check_eq_ok {p : Prop} [Decidable p] {e : ε} {f : PUnit → Except ε β} {b : β} :
    (if p then throw e >>= f else f PUnit.unit) = .ok b ↔ ¬p ∧ f PUnit.unit = .ok b := by
  by_cases hp : p <;> simp [hp, bind, Except.bind, throw, throwThe, MonadExceptOf.throw]

theorem ite_throw_eq_ok {p : Prop} [Decidable p] {e : ε} {x : Except ε α} {a : α} :
    (if p then throw e else x) = .ok a ↔ ¬p ∧ x = .ok a := by
  by_cases hp : p <;> simp [hp, throw_ne_ok]

theorem ite_pure_eq_ok {p : Prop} [Decidable p] {e : ε} {a b : α} :
    (if p then pure a else throw e : Except ε α) = .ok b ↔ p ∧ a = b := by
  by_cases hp : p <;> simp [hp, pure_eq_ok, throw_ne_ok]

/-- What each step preserves holds of what a fold returns. The items that were read
stand beside the accumulator. -/
theorem foldlM_inv {ι : Type u} {step : β → ι → Except ε β} {items : List ι} {init out : β}
    (holds : β → List ι → Prop)
    (hstep : ∀ acc seen x next, holds acc seen → step acc x = .ok next → holds next (seen ++ [x]))
    (h : holds init []) (hfold : items.foldlM step init = .ok out) : holds out items := by
  suffices hall : ∀ rest seen acc, holds acc seen → rest.foldlM step acc = .ok out →
      holds out (seen ++ rest) from hall items [] init h hfold
  intro rest
  induction rest with
  | nil =>
    intro seen acc hacc hdone
    obtain rfl := pure_eq_ok.mp hdone
    simpa using hacc
  | cons x rest ih =>
    intro seen acc hacc hrest
    rw [List.foldlM_cons] at hrest
    obtain ⟨next, hnext, hrest⟩ := bind_eq_ok.mp hrest
    simpa using ih (seen ++ [x]) next (hstep acc seen x next hacc hnext) hrest

theorem foldlM_ok_iff {ι : Type u} {step : β → ι → Except ε β} {accepts : ι → Prop}
    (hstep : ∀ acc x, (∃ next, step acc x = .ok next) ↔ accepts x) {items : List ι} {init : β} :
    (∃ out, items.foldlM step init = .ok out) ↔ ∀ x ∈ items, accepts x := by
  induction items generalizing init with
  | nil => simp [pure, Except.pure]
  | cons x rest ih =>
    rw [List.forall_mem_cons, ← hstep init x]
    simp only [List.foldlM_cons, bind_eq_ok]
    constructor
    · rintro ⟨out, next, hnext, hrest⟩
      exact ⟨⟨next, hnext⟩, ih.mp ⟨out, hrest⟩⟩
    · rintro ⟨⟨next, hnext⟩, hrest⟩
      obtain ⟨out, hout⟩ := ih.mpr hrest
      exact ⟨out, next, hnext, hout⟩

/-! ## What a call may raise -/

def OnlyRaises (p : ε → Prop) (x : Except ε α) : Prop := ∀ e, x = .error e → p e

variable {p : ε → Prop}

@[simp] theorem onlyRaises_ok {a : α} : OnlyRaises p (.ok a : Except ε α) := nofun

@[simp] theorem onlyRaises_pure {a : α} : OnlyRaises p (pure a : Except ε α) := nofun

@[simp] theorem onlyRaises_error {e : ε} : OnlyRaises p (.error e : Except ε α) ↔ p e := by
  simp [OnlyRaises]

@[simp] theorem onlyRaises_throw {e : ε} : OnlyRaises p (throw e : Except ε α) ↔ p e :=
  onlyRaises_error

theorem onlyRaises_bind {x : Except ε α} {f : α → Except ε β} :
    OnlyRaises p (x >>= f) ↔ OnlyRaises p x ∧ ∀ a, x = .ok a → OnlyRaises p (f a) := by
  cases x <;> simp [OnlyRaises, bind, Except.bind]

theorem onlyRaises_foldlM {ι : Type u} {step : β → ι → Except ε β} {items : List ι} {init : β}
    (h : ∀ acc, ∀ x ∈ items, OnlyRaises p (step acc x)) : OnlyRaises p (items.foldlM step init) := by
  induction items generalizing init with
  | nil => exact onlyRaises_pure
  | cons x rest ih =>
    rw [List.foldlM_cons, onlyRaises_bind]
    exact ⟨h init x (by simp), fun next _ => ih fun acc y hy => h acc y (by simp [hy])⟩

end Raise
