import Mathlib.Data.List.AList
import Mathlib.Tactic.IntervalCases

/-!
# Tables with a primary key

A table is an association list with one row for each key. An update changes the rows
that satisfy a condition, each in its place.
-/

universe u v

abbrev Table (K : Type u) (R : Type v) := AList fun _ : K => R

namespace Table

variable {K : Type u} {R : Type v}

/-- The keys of the rows that satisfy a condition. -/
def search (t : Table K R) (p : R → Bool) : List K := (t.entries.filter fun e => p e.2).map (·.1)

/-- One change of all rows that a search finds. -/
def update (t : Table K R) (p : K → R → Bool) (f : R → R) : Table K R where
  entries := t.entries.map fun e => ⟨e.1, if p e.1 e.2 then f e.2 else e.2⟩
  nodupKeys := by
    have h : (t.entries.map Sigma.fst).Nodup := t.nodupKeys
    rw [List.NodupKeys, List.keys, List.map_map]
    exact h

def write [DecidableEq K] (t : Table K R) (k : K) (r : R) : Table K R :=
  t.update (fun j _ => j = k) fun _ => r

variable {t : Table K R} {p : K → R → Bool} {f : R → R} {k : K} {r : R}

@[simp] theorem keys_update : (t.update p f).keys = t.keys := by
  simp [update, AList.keys, List.keys]

theorem keys_eq_singleton : t.keys = [k] ↔ k ∈ t ∧ ∀ j ∈ t, j = k := by
  simp only [AList.mem_keys]
  constructor
  · intro h
    simp [h]
  · rintro ⟨hk, hall⟩
    obtain ⟨n, hn⟩ : ∃ n, t.keys = List.replicate n k := ⟨_, List.eq_replicate_of_mem hall⟩
    have hone : n ≤ 1 := List.nodup_replicate.mp (hn ▸ t.keys_nodup)
    interval_cases n
    · simp [hn] at hk
    · exact hn

variable [DecidableEq K]

theorem mem_iff_lookup : k ∈ t ↔ ∃ r, t.lookup k = some r := by
  rw [← AList.lookup_isSome, Option.isSome_iff_exists]

theorem lookup_eq_some : t.lookup k = some r ↔ ⟨k, r⟩ ∈ t.entries := AList.mem_lookup_iff

theorem mem_search {q : R → Bool} : k ∈ t.search q ↔ ∃ r, t.lookup k = some r ∧ q r := by
  simp only [search, List.mem_map, List.mem_filter, lookup_eq_some]
  constructor
  · rintro ⟨⟨j, r⟩, ⟨hmem, hq⟩, rfl⟩
    exact ⟨r, hmem, hq⟩
  · rintro ⟨r, hmem, hq⟩
    exact ⟨⟨k, r⟩, ⟨hmem, hq⟩, rfl⟩

theorem search_eq_nil {q : R → Bool} : t.search q = [] ↔ ∀ k r, t.lookup k = some r → q r = false := by
  rw [List.eq_nil_iff_forall_not_mem]
  simp only [mem_search, not_exists, not_and, Bool.not_eq_true]

theorem lookup_update :
    (t.update p f).lookup k = (t.lookup k).map fun r => if p k r then f r else r :=
  List.dlookup_map₂ (f := fun j r => if p j r then f r else r) k

theorem search_update {q : R → Bool} (h : ∀ k r, t.lookup k = some r → p k r → q (f r) = q r) :
    (t.update p f).search q = t.search q := by
  simp only [search, update, List.filter_map, List.map_map, Function.comp_def]
  congr 1
  refine List.filter_congr fun e he => ?_
  split
  · next hp => exact h e.1 e.2 (lookup_eq_some.mpr he) hp
  · rfl

theorem update_eq_self (h : ∀ k r, t.lookup k = some r → p k r → f r = r) : t.update p f = t := by
  refine AList.ext ?_
  conv_rhs => rw [← List.map_id t.entries]
  refine List.map_congr_left fun e he => ?_
  by_cases hp : p e.1 e.2
  · simp [hp, h e.1 e.2 (lookup_eq_some.mpr he) hp]
  · simp [hp]

@[simp] theorem keys_write : (t.write k r).keys = t.keys := keys_update

theorem lookup_write_self {old : R} (h : t.lookup k = some old) : (t.write k r).lookup k = some r := by
  simp [write, lookup_update, h]

theorem lookup_write_ne {j : K} (h : j ≠ k) : (t.write k r).lookup j = t.lookup j := by
  simp [write, lookup_update, h]

theorem search_write {q : R → Bool} {old : R} (h : t.lookup k = some old) (hq : q r = q old) :
    (t.write k r).search q = t.search q := by
  refine search_update fun j found hj hp => ?_
  obtain rfl : j = k := by simpa using hp
  rw [hq, Option.some.inj (h.symm.trans hj)]

theorem write_self (h : t.lookup k = some r) : t.write k r = t := by
  refine update_eq_self fun j old hj hp => ?_
  obtain rfl : j = k := by simpa using hp
  exact Option.some.inj (h.symm.trans hj)

/-! ## Tables of other rows -/

section MapRows

variable {R' : Type v} {g : R → R'}

omit [DecidableEq K]

/-- The same keys, with other rows under them. -/
def mapRows (t : Table K R) (g : R → R') : Table K R' where
  entries := t.entries.map fun e => ⟨e.1, g e.2⟩
  nodupKeys := by
    have h : (t.entries.map Sigma.fst).Nodup := t.nodupKeys
    rw [List.NodupKeys, List.keys, List.map_map]
    exact h

@[simp] theorem keys_mapRows : (t.mapRows g).keys = t.keys := by
  simp [mapRows, AList.keys, List.keys]

@[simp] theorem lookup_mapRows [DecidableEq K] : (t.mapRows g).lookup k = (t.lookup k).map g :=
  List.dlookup_map₂ (f := fun _ r => g r) k

end MapRows

end Table
