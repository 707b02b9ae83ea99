import Mathlib.Data.List.Nodup
import Mathlib.Data.List.Pairwise
import Mathlib.Order.Lattice

/-!
# A queue that is served from the front

A run takes the first records of a queue, as many as a limit allows. Those that stay
keep their places, so the next run meets them again before it comes to the rest.
-/

namespace Queue

variable {α : Type*} {limit n r : Nat} {stays : α → Bool} {queue : List α} {x : α}

/-! ## Runs -/

/-- The queue after a run: what stays of the records it took, and the rest. -/
def after (limit : Nat) (stays : α → Bool) (queue : List α) : List α :=
  (queue.take limit).filter stays ++ queue.drop limit

/-- The queue after some runs. -/
def runs (limit : Nat) (stays : α → Bool) (queue : List α) : Nat → List α
  | 0 => queue
  | r + 1 => after limit stays (runs limit stays queue r)

/-- How many records the first runs come to: a run comes to as many new ones as the
limit leaves beside those that stayed. -/
def reach (limit : Nat) (stays : α → Bool) (queue : List α) : Nat → Nat
  | 0 => 0
  | r + 1 => reach limit stays queue r +
      (limit - ((queue.take (reach limit stays queue r)).filter stays).length)

theorem reach_le_succ : reach limit stays queue r ≤ reach limit stays queue (r + 1) :=
  Nat.le_add_right _ _

theorem reach_mono (h : r ≤ n) : reach limit stays queue r ≤ reach limit stays queue n := by
  induction h with
  | refl => exact Nat.le_refl _
  | step _ ih => exact Nat.le_trans ih reach_le_succ

theorem runs_eq : runs limit stays queue r =
    (queue.take (reach limit stays queue r)).filter stays ++
      queue.drop (reach limit stays queue r) := by
  induction r with
  | zero => simp [runs, reach]
  | succ r ih =>
    rw [runs, ih, reach, after]
    generalize reach limit stays queue r = k
    rw [List.take_append, List.drop_append, List.take_add, List.filter_append, List.filter_append,
      ← List.drop_drop]
    rcases Nat.le_total ((queue.take k).filter stays).length limit with hle | hle
    · rw [List.take_of_length_le hle, List.drop_of_length_le hle, List.filter_filter]
      simp
    · rw [Nat.sub_eq_zero_of_le hle]
      have hall : (((queue.take k).filter stays).take limit).filter stays =
          ((queue.take k).filter stays).take limit := by
        rw [List.filter_eq_self]
        intro x hx
        exact (List.mem_filter.mp (List.mem_of_mem_take hx)).2
      rw [hall, List.take_zero, List.filter_nil, List.append_nil, List.drop_zero, List.append_nil,
        ← List.append_assoc, List.take_append_drop]

/-- The records that some run took are those that the runs came to. -/
theorem served_iff : (∃ r < n, x ∈ (runs limit stays queue r).take limit) ↔
    x ∈ queue.take (reach limit stays queue n) := by
  have hsucc : ∀ r, x ∈ (runs limit stays queue r).take limit →
      x ∈ queue.take (reach limit stays queue (r + 1)) := by
    intro r hx
    rw [runs_eq, List.take_append, List.mem_append] at hx
    rw [reach, List.take_add, List.mem_append]
    rcases hx with hx | hx
    · exact .inl (List.mem_filter.mp (List.mem_of_mem_take hx)).1
    · exact .inr hx
  constructor
  · rintro ⟨r, hr, hx⟩
    exact List.take_subset_take_left _ (reach_mono hr) (hsucc r hx)
  · induction n with
    | zero => simp [reach]
    | succ n ih =>
      intro hx
      rw [reach, List.take_add, List.mem_append] at hx
      rcases hx with hx | hx
      · obtain ⟨r, hr, hserved⟩ := ih hx
        exact ⟨r, Nat.lt_succ_of_lt hr, hserved⟩
      · refine ⟨n, Nat.lt_succ_self n, ?_⟩
        rw [runs_eq, List.take_append, List.mem_append]
        exact .inr hx

theorem reach_stuck (h : limit ≤ ((queue.take (reach limit stays queue r)).filter stays).length) :
    reach limit stays queue (r + n) = reach limit stays queue r := by
  induction n with
  | zero => rfl
  | succ n ih => rw [← Nat.add_assoc, reach, ih, Nat.sub_eq_zero_of_le h, Nat.add_zero]

theorem reach_one : reach limit stays queue 1 = limit := by simp [reach]

theorem reach_blocked (hlen : limit ≤ queue.length) (h : ∀ x ∈ queue.take limit, stays x = true) :
    reach limit stays queue (n + 1) = limit := by
  have hstay : ((queue.take (reach limit stays queue 1)).filter stays).length = limit := by
    rw [reach_one, List.filter_eq_self.mpr h, List.length_take, Nat.min_eq_left hlen]
  rw [Nat.add_comm, reach_stuck (Nat.le_of_eq hstay.symm), reach_one]

theorem reach_free (h : ∀ x ∈ queue, stays x = false) : reach limit stays queue r = r * limit := by
  induction r with
  | zero => rw [reach, Nat.zero_mul]
  | succ r ih =>
    have hnone : (queue.take (r * limit)).filter stays = [] := by
      rw [List.filter_eq_nil_iff]
      intro x hx
      simp [h x (List.mem_of_mem_take hx)]
    rw [reach, ih, hnone, List.length_nil, Nat.sub_zero, Nat.succ_mul]

/-! ## A queue that is kept as a table -/

theorem filter_after {table : List α} {found found' : α → Bool} (hn : table.Nodup)
    (htaken : ∀ x ∈ (table.filter found).take limit, found' x = stays x)
    (hleft : ∀ x ∈ table, x ∉ (table.filter found).take limit → found' x = found x) :
    table.filter found' = after limit stays (table.filter found) := by
  have hfound : table.filter found' = (table.filter found).filter found' := by
    rw [List.filter_filter]
    refine List.filter_congr fun x hx => ?_
    by_cases hfx : found x = true
    · simp [hfx]
    · have hnot : x ∉ (table.filter found).take limit :=
        fun hmem => hfx (List.mem_filter.mp (List.mem_of_mem_take hmem)).2
      rw [hleft x hx hnot]
      simp [hfx]
  have hnodup : (table.filter found).Nodup := hn.filter _
  rw [hfound, after]
  conv_lhs => rw [← List.take_append_drop limit (table.filter found), List.filter_append]
  have hdisjoint := List.disjoint_take_drop hnodup (Nat.le_refl limit)
  congr 1
  · exact List.filter_congr htaken
  · rw [List.filter_eq_self]
    intro x hx
    have hmem := List.mem_filter.mp (List.mem_of_mem_drop hx)
    rw [hleft x hmem.1 fun htake => hdisjoint htake hx]
    exact hmem.2

/-- Searches that find after each run what stayed of the taken, and what was not
taken, find the queue of the runs. -/
theorem filter_runs {table : List α} {found : Nat → α → Bool} (hn : table.Nodup)
    (htaken : ∀ r < n, ∀ x ∈ (table.filter (found r)).take limit, found (r + 1) x = stays x)
    (hleft : ∀ r < n, ∀ x ∈ table, x ∉ (table.filter (found r)).take limit →
      found (r + 1) x = found r x) :
    ∀ r ≤ n, table.filter (found r) = runs limit stays (table.filter (found 0)) r := by
  intro r hr
  induction r with
  | zero => rfl
  | succ r ih =>
    rw [runs, ← ih (Nat.le_of_lt hr)]
    exact filter_after hn (htaken r hr) (hleft r hr)

theorem take_of_le {k : Nat} (hn : queue.Nodup) :
    (∀ x ∈ queue, x ∈ queue.take k) ↔ queue.length ≤ k := by
  constructor
  · intro h
    by_contra hlt
    have hk : k < queue.length := Nat.lt_of_not_le hlt
    have hdrop : queue[k] ∈ queue.drop k := by
      rw [List.drop_eq_getElem_cons hk]
      exact List.mem_cons_self
    exact List.disjoint_take_drop hn (Nat.le_refl k) (h _ (List.getElem_mem hk)) hdrop
  · intro h x hx
    rwa [List.take_of_length_le h]

/-! ## Order of service -/

theorem sorted_serves_iff {κ : Type*} [LinearOrder κ] {key : α → κ} {before : α → α → Prop}
    {l : List α} (hsorted : l.Pairwise fun a b => key a ≤ key b)
    (hkey : ∀ a ∈ l, ∀ b ∈ l, before a b → key a ≠ key b) :
    (l.Pairwise fun a b => ¬ before b a) ↔ ∀ a ∈ l, ∀ b ∈ l, before a b → key a < key b := by
  constructor
  · intro hserved a ha b hb hab
    have hle : before a b → key a ≤ key b :=
      List.Pairwise.forall_of_forall_of_flip (R := fun a b => before a b → key a ≤ key b)
        (fun _ _ _ => le_refl _) (hsorted.imp (S := fun a b => before a b → key a ≤ key b) fun h _ => h)
        (hserved.imp (S := fun a b => before b a → key b ≤ key a) fun h hbefore => absurd hbefore h)
        ha hb
    exact lt_of_le_of_ne (hle hab) (hkey a ha b hb hab)
  · intro h
    exact hsorted.imp_of_mem fun ha hb hle hba => absurd (h _ hb _ ha hba) (not_lt.mpr hle)

end Queue
