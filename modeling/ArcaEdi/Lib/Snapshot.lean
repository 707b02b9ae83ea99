import Mathlib.Logic.Function.Basic

/-!
# A store with snapshot isolation

A transaction works on its own view of the store as it was when the transaction
began. Its commit is atomic, and it is refused when a row that it wrote has
changed since. Row `k` has type `V k`, so tables of different shapes share one
store.
-/

namespace Snapshot

variable {K : Type*} {V : K → Type*}

/-- The committed rows, each with the number of commits that wrote it. -/
structure Store (K : Type*) (V : K → Type*) where
  row : (k : K) → V k
  ver : K → Nat

/-- An open transaction. Outside the rows that it wrote, it sees its snapshot. -/
structure Tx (K : Type*) (V : K → Type*) where
  snap : Store K V
  view : (k : K) → V k
  dirty : List K
  clean : ∀ k, k ∉ dirty → view k = snap.row k

/-- A snapshot of the store as it is now. -/
def Tx.start (s : Store K V) : Tx K V := ⟨s, s.row, [], fun _ _ => rfl⟩

@[simp] theorem start_snap (s : Store K V) : (Tx.start s).snap = s := rfl
@[simp] theorem start_view (s : Store K V) : (Tx.start s).view = s.row := rfl
@[simp] theorem start_dirty (s : Store K V) : (Tx.start s).dirty = [] := rfl

/-- No row that the transaction wrote has changed since its snapshot. -/
def Tx.fits (t : Tx K V) (s : Store K V) : Prop := ∀ k ∈ t.dirty, s.ver k = t.snap.ver k

instance (t : Tx K V) (s : Store K V) : Decidable (t.fits s) :=
  inferInstanceAs (Decidable (∀ k ∈ t.dirty, s.ver k = t.snap.ver k))

section Writes

variable [DecidableEq K]

def Tx.write (t : Tx K V) (k : K) (v : V k) : Tx K V where
  snap := t.snap
  view := Function.update t.view k v
  dirty := k :: t.dirty
  clean j hj := by
    rw [List.mem_cons, not_or] at hj
    rw [Function.update_of_ne hj.1]
    exact t.clean j hj.2

/-- The store once the transaction's writes are in it. -/
def Store.apply (s : Store K V) (t : Tx K V) : Store K V where
  row k := if k ∈ t.dirty then t.view k else s.row k
  ver k := if k ∈ t.dirty then s.ver k + 1 else s.ver k

/-- The first committer wins. -/
def Tx.commit (t : Tx K V) (s : Store K V) : Option (Store K V) :=
  if t.fits s then some (s.apply t) else none

@[simp] theorem write_snap (t : Tx K V) (k : K) (v : V k) : (t.write k v).snap = t.snap := rfl
@[simp] theorem write_dirty (t : Tx K V) (k : K) (v : V k) : (t.write k v).dirty = k :: t.dirty := rfl
@[simp] theorem write_view_self (t : Tx K V) (k : K) (v : V k) : (t.write k v).view k = v :=
  Function.update_self ..
theorem write_view_ne (t : Tx K V) {k j : K} (v : V k) (h : j ≠ k) :
    (t.write k v).view j = t.view j :=
  Function.update_of_ne h ..

theorem commit_eq_some {t : Tx K V} {s s' : Store K V} :
    t.commit s = some s' ↔ t.fits s ∧ s' = s.apply t := by
  unfold Tx.commit
  split <;> simp_all [eq_comm]

theorem apply_row_dirty (s : Store K V) {t : Tx K V} {k : K} (h : k ∈ t.dirty) :
    (s.apply t).row k = t.view k := if_pos h
theorem apply_row_clean (s : Store K V) {t : Tx K V} {k : K} (h : k ∉ t.dirty) :
    (s.apply t).row k = s.row k := if_neg h
theorem apply_ver_dirty (s : Store K V) {t : Tx K V} {k : K} (h : k ∈ t.dirty) :
    (s.apply t).ver k = s.ver k + 1 := if_pos h
theorem apply_ver_clean (s : Store K V) {t : Tx K V} {k : K} (h : k ∉ t.dirty) :
    (s.apply t).ver k = s.ver k := if_neg h

theorem apply_latest {t : Tx K V} {s : Store K V} (h : t.snap = s) : (s.apply t).row = t.view := by
  funext k
  by_cases hk : k ∈ t.dirty
  · exact apply_row_dirty s hk
  · rw [apply_row_clean s hk, t.clean k hk, h]

theorem ver_le_apply (s : Store K V) (t : Tx K V) (k : K) : s.ver k ≤ (s.apply t).ver k := by
  by_cases h : k ∈ t.dirty
  · rw [apply_ver_dirty s h]
    exact Nat.le_succ _
  · exact Nat.le_of_eq (apply_ver_clean s h).symm

end Writes

/-! ## Guarded rows

A row may name another row, its guard: an order line names its order. Where
every transaction that touches a guarded row also writes the guard, the guard's
version number speaks for the whole group.
-/

variable (guard : (k : K) → V k → Option K)

/-- The transaction writes the guard of every row that it writes. -/
def Covers (t : Tx K V) : Prop :=
  ∀ k ∈ t.dirty, ∀ g, guard k (t.snap.row k) = some g ∨ guard k (t.view k) = some g → g ∈ t.dirty

/-- `s` is a later state of `s0`: version numbers only grow, and where one has
not grown, neither the row nor the group that it guards has changed. -/
structure Follows (s0 s : Store K V) : Prop where
  ver_le : ∀ k, s0.ver k ≤ s.ver k
  row_eq : ∀ k, s0.ver k = s.ver k → s.row k = s0.row k
  group_eq : ∀ k g, guard k (s0.row k) = some g ∨ guard k (s.row k) = some g →
    s0.ver g = s.ver g → s.row k = s0.row k

/-- Row `g` and every row that it guards, on either side, are the same. -/
structure SameGroup (g : K) (A B : (k : K) → V k) : Prop where
  root : A g = B g
  rows : ∀ k, guard k (A k) = some g ∨ guard k (B k) = some g → A k = B k

variable {guard}

theorem follows_refl (s : Store K V) : Follows guard s s :=
  ⟨fun _ => Nat.le_refl _, fun _ _ => rfl, fun _ _ _ _ => rfl⟩

theorem follows_trans {s0 s1 s2 : Store K V} (h1 : Follows guard s0 s1) (h2 : Follows guard s1 s2) :
    Follows guard s0 s2 := by
  have hver : ∀ k, s0.ver k = s2.ver k → s0.ver k = s1.ver k ∧ s1.ver k = s2.ver k := by
    intro k hk
    have := h1.ver_le k
    have := h2.ver_le k
    omega
  refine ⟨fun k => Nat.le_trans (h1.ver_le k) (h2.ver_le k), ?_, ?_⟩
  · intro k hk
    rw [h2.row_eq k (hver k hk).2, h1.row_eq k (hver k hk).1]
  · rintro k g hg hk
    obtain ⟨e1, e2⟩ := hver g hk
    rcases hg with hg | hg
    · have hrow := h1.group_eq k g (.inl hg) e1
      rw [h2.group_eq k g (.inl (by rw [hrow]; exact hg)) e2, hrow]
    · have hrow := h2.group_eq k g (.inr hg) e2
      rw [hrow, h1.group_eq k g (.inr (by rw [← hrow]; exact hg)) e1]

theorem same_group_symm {g : K} {A B : (k : K) → V k} (h : SameGroup guard g A B) :
    SameGroup guard g B A :=
  ⟨h.root.symm, fun k hk => (h.rows k hk.symm).symm⟩

theorem fits_row_eq {t : Tx K V} {s : Store K V} (hf : Follows guard t.snap s) (hfit : t.fits s)
    {k : K} (hk : k ∈ t.dirty) : s.row k = t.snap.row k :=
  hf.row_eq k (hfit k hk).symm

section Commit

variable [DecidableEq K]

theorem apply_row (s : Store K V) (t : Tx K V) (k : K) :
    (s.apply t).row k = s.row k ∨ (s.apply t).row k = t.view k := by
  by_cases hd : k ∈ t.dirty
  · exact .inr (apply_row_dirty s hd)
  · exact .inl (apply_row_clean s hd)

/-- What it changes was as the transaction's snapshot has it. -/
theorem apply_row_fits {t : Tx K V} {s : Store K V} (hf : Follows guard t.snap s)
    (hfit : t.fits s) (k : K) :
    (s.apply t).row k = s.row k ∨ s.row k = t.snap.row k ∧ (s.apply t).row k = t.view k := by
  by_cases hd : k ∈ t.dirty
  · exact .inr ⟨fits_row_eq hf hfit hd, apply_row_dirty s hd⟩
  · exact .inl (apply_row_clean s hd)

theorem follows_apply {t : Tx K V} {s : Store K V} (hf : Follows guard t.snap s)
    (hc : Covers guard t) (hfit : t.fits s) : Follows guard s (s.apply t) := by
  have hgrew : ∀ g ∈ t.dirty, s.ver g ≠ (s.apply t).ver g := by
    intro g hg
    rw [apply_ver_dirty s hg]
    omega
  refine ⟨ver_le_apply s t, ?_, ?_⟩
  · intro k hk
    by_cases hd : k ∈ t.dirty
    · exact absurd hk (hgrew k hd)
    · exact apply_row_clean s hd
  · intro k g hg hver
    by_cases hd : k ∈ t.dirty
    · rw [apply_row_dirty s hd, fits_row_eq hf hfit hd] at hg
      exact absurd hver (hgrew g (hc k hd g hg))
    · exact apply_row_clean s hd

theorem apply_group {t : Tx K V} {s : Store K V} (hf : Follows guard t.snap s)
    (hc : Covers guard t) (hfit : t.fits s) (g : K) :
    (g ∈ t.dirty ∧ SameGroup guard g (s.apply t).row t.view ∧ SameGroup guard g s.row t.snap.row) ∨
      (g ∉ t.dirty ∧ SameGroup guard g (s.apply t).row s.row) := by
  by_cases hg : g ∈ t.dirty
  · refine .inl ⟨hg, ⟨apply_row_dirty s hg, ?_⟩, ⟨fits_row_eq hf hfit hg, ?_⟩⟩
    · intro k hk
      by_cases hd : k ∈ t.dirty
      · exact apply_row_dirty s hd
      · rw [apply_row_clean s hd, t.clean k hd] at hk ⊢
        exact hf.group_eq k g hk.symm (hfit g hg).symm
    · intro k hk
      exact hf.group_eq k g hk.symm (hfit g hg).symm
  · refine .inr ⟨hg, ⟨apply_row_clean s hg, ?_⟩⟩
    intro k hk
    by_cases hd : k ∈ t.dirty
    · rw [apply_row_dirty s hd, fits_row_eq hf hfit hd] at hk
      exact absurd (hc k hd g hk.symm) hg
    · exact apply_row_clean s hd

theorem apply_inv {P : ((k : K) → V k) → K → Prop} {t : Tx K V} {s : Store K V} {g : K}
    (hlocal : ∀ A B, SameGroup guard g A B → P A g → P B g) (hf : Follows guard t.snap s)
    (hc : Covers guard t) (hfit : t.fits s) (hs : P s.row g) (ht : P t.view g) :
    P (s.apply t).row g := by
  rcases apply_group hf hc hfit g with ⟨-, h, -⟩ | ⟨-, h⟩
  · exact hlocal _ _ (same_group_symm h) ht
  · exact hlocal _ _ (same_group_symm h) hs

end Commit

theorem covers_start (s : Store K V) : Covers guard (Tx.start s) := by simp [Covers]

theorem covers_write [DecidableEq K] {t : Tx K V} {k : K} {v : V k} (hc : Covers guard t)
    (hold : ∀ g, guard k (t.snap.row k) = some g → g ∈ k :: t.dirty)
    (hnew : ∀ g, guard k v = some g → g ∈ k :: t.dirty) : Covers guard (t.write k v) := by
  intro j hj g hg
  rw [write_dirty] at hj ⊢
  rw [write_snap] at hg
  by_cases hjk : j = k
  · subst hjk
    rw [write_view_self] at hg
    exact hg.elim (hold g) (hnew g)
  · rw [write_view_ne t v hjk] at hg
    exact List.mem_cons_of_mem _ (hc j ((List.mem_cons.mp hj).resolve_left hjk) g hg)

/-! ## Rows on their own -/

/-- No row has a guard. -/
def unguarded : (k : K) → V k → Option K := fun _ _ => none

theorem covers_unguarded (t : Tx K V) : Covers unguarded t := by
  rintro k - g (h | h) <;> cases h

end Snapshot
