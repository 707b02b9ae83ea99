import ArcaEdi.Lib.Runs
import ArcaEdi.Lib.Snapshot

/-!
# What a run does not depend on

An erasure forgets a part of a state. Where each step of a state and the step of its
erasure are the same but for that part, two states that differ in it alone go through the
same runs.
-/

namespace Runs

variable {σ α : Type*} {S : System σ α} {ok : α → Prop} {e : σ → σ} {s s' t : σ} {a : α}

/-- Under these actions, what a step does beside the erased part does not depend on it. -/
def Forgets (S : System σ α) (ok : α → Prop) (e : σ → σ) : Prop :=
  ∀ s a, ok a → (S.step (e s) a).map e = (S.step s a).map e

theorem step_forgets (hidem : ∀ s, e (e s) = e s) (h : S.step (e s) a = (S.step s a).map e) :
    (S.step (e s) a).map e = (S.step s a).map e := by
  rw [h, Option.map_map, show e ∘ e = e from funext hidem]

theorem erased_eq {ε τ : Type*} {e : τ → τ} {r r' : Except ε τ} (h : r.map e = r'.map e) :
    (∃ x, r = .error x ∧ r' = .error x) ∨ ∃ a b, r = .ok a ∧ r' = .ok b ∧ e a = e b := by
  cases r with
  | error x =>
    cases r' with
    | error y => exact .inl ⟨y, congrArg Except.error (Except.error.inj h), rfl⟩
    | ok b => cases h
  | ok a =>
    cases r' with
    | error y => cases h
    | ok b => exact .inr ⟨a, b, rfl, rfl, Except.ok.inj h⟩

theorem Forgets.step (h : Forgets S ok e) (hok : ok a) (he : e s = e s')
    (hs : S.step s a = some t) : ∃ t', S.step s' a = some t' ∧ e t' = e t := by
  have hsame : (S.step s' a).map e = some (e t) := by
    rw [← h s' a hok, ← he, h s a hok, hs]
    rfl
  exact Option.map_eq_some_iff.mp hsame

theorem Forgets.takes {acts : List α} (h : Forgets S ok e) (he : e s = e s')
    (ht : Takes S (fun _ a => ok a) s acts t) :
    ∃ t', Takes S (fun _ a => ok a) s' acts t' ∧ e t' = e t := by
  induction ht generalizing s' with
  | nil => exact ⟨s', .nil, he.symm⟩
  | cons hok hs _ ih =>
    obtain ⟨u', hstep, hu⟩ := h.step hok he hs
    obtain ⟨t', htakes, ht'⟩ := ih hu.symm
    exact ⟨t', .cons hok hstep htakes, ht'⟩

end Runs

/-! ## Rows -/

namespace Snapshot

variable {K : Type*} {V : K → Type*} (f : (k : K) → V k → V k)

def Store.map (s : Store K V) : Store K V := ⟨fun k => f k (s.row k), s.ver⟩

/-- The transaction as it would be over the mapped store. -/
def Tx.map (t : Tx K V) : Tx K V where
  snap := t.snap.map f
  view k := f k (t.view k)
  dirty := t.dirty
  clean k hk := congrArg (f k) (t.clean k hk)

variable {f}

theorem map_store_idem (h : ∀ k v, f k (f k v) = f k v) (s : Store K V) :
    (s.map f).map f = s.map f := by
  simp only [Store.map, h]

theorem map_tx_idem (h : ∀ k v, f k (f k v) = f k v) (t : Tx K V) : (t.map f).map f = t.map f := by
  simp only [Tx.map, map_store_idem h, h]

variable [DecidableEq K]

theorem map_write (t : Tx K V) (k : K) (v : V k) :
    (t.write k v).map f = (t.map f).write k (f k v) := by
  have hview : (fun j => f j (Function.update t.view k v j)) =
      Function.update (fun j => f j (t.view j)) k (f k v) := by
    funext j
    by_cases hj : j = k
    · subst hj
      rw [Function.update_self, Function.update_self]
    · rw [Function.update_of_ne hj, Function.update_of_ne hj]
  simp only [Tx.map, Tx.write, hview]

theorem map_apply (s : Store K V) (t : Tx K V) :
    (s.apply t).map f = (s.map f).apply (t.map f) := by
  have hrow : (fun k => f k (if k ∈ t.dirty then t.view k else s.row k)) =
      fun k => if k ∈ t.dirty then f k (t.view k) else f k (s.row k) :=
    funext fun k => apply_ite (f k) _ _ _
  exact congrArg₂ Store.mk hrow rfl

theorem map_commit (t : Tx K V) (s : Store K V) :
    (t.map f).commit (s.map f) = (t.commit s).map (Store.map f) := by
  have hfits : (t.map f).fits (s.map f) ↔ t.fits s := Iff.rfl
  unfold Tx.commit
  rw [← map_apply]
  by_cases h : t.fits s
  · rw [if_pos h, if_pos (hfits.mpr h)]
    rfl
  · rw [if_neg h, if_neg (hfits.not.mpr h)]
    rfl

end Snapshot
