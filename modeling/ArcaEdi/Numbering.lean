import Mathlib.Logic.Function.Basic
import ArcaEdi.Lib.Refinement

/-!
# The numbering

What the module is for, without its transactions, locks and answers. An invoice is free,
has asked for a number, or is authorized under the CAE of a number. The authority issues
each number at most once.
-/

namespace Numbering

open Runs

/-- How an invoice stands with the authority. -/
inductive Standing (C K : Type*)
  | free
  | asked (c : C)
  | authorized (c : C) (cae : K)
  deriving DecidableEq

/-- The number that an invoice stands at. -/
def Standing.number? {C K : Type*} : Standing C K → Option C
  | .free => none
  | .asked c | .authorized c _ => some c

structure Entry (I K : Type*) where
  /-- The invoice that asked for it. None where somebody else did. -/
  requestedBy : Option I
  cae : K

/-- How each invoice stands, and what was issued. -/
structure Book (I C K : Type*) where
  standing : I → Standing C K
  issued : C → Option (Entry I K)

variable {I C K : Type*} [DecidableEq I] [DecidableEq C] {B B' : Book I C K}

/-- The five rules of the book. -/
inductive Next (B : Book I C K) : Book I C K → Prop
  | ask {m : I} {c : C} (h : B.standing m = .free) (hfree : ∀ n, (B.standing n).number? ≠ some c) :
      Next B { B with standing := Function.update B.standing m (.asked c) }
  | issue {m : I} {c : C} {cae : K} (h : B.standing m = .asked c) (hnone : B.issued c = none) :
      Next B { B with issued := Function.update B.issued c (some ⟨some m, cae⟩) }
  | elsewhere {c : C} {cae : K} (hnone : B.issued c = none) :
      Next B { B with issued := Function.update B.issued c (some ⟨none, cae⟩) }
  | authorize {m : I} {c : C} {e : Entry I K} (h : B.standing m = .asked c) (he : B.issued c = some e) :
      Next B { B with standing := Function.update B.standing m (.authorized c e.cae) }
  | withdraw {m : I} {c : C} (h : B.standing m = .asked c)
      (hno : ∀ e, B.issued c = some e → e.requestedBy ≠ some m) :
      Next B { B with standing := Function.update B.standing m .free }

structure Init (B : Book I C K) : Prop where
  standing : ∀ m, B.standing m = .free
  issued : ∀ c e, B.issued c = some e → e.requestedBy = none

def spec : Spec (Book I C K) := ⟨Init, Next⟩

/-! ## Safety -/

/-- No number is given twice, and none is lost. -/
structure Safe (B : Book I C K) : Prop where
  /-- A number that was issued for an invoice is the one that the invoice stands at. -/
  own : ∀ c e m, B.issued c = some e → e.requestedBy = some m → (B.standing m).number? = some c
  /-- An authorized invoice has the CAE that was issued. -/
  cae : ∀ m c k, B.standing m = .authorized c k → ∃ e, B.issued c = some e ∧ e.cae = k
  apart : ∀ m n c, (B.standing m).number? = some c → (B.standing n).number? = some c → m = n

omit [DecidableEq I] [DecidableEq C] in
theorem safe_init (h : Init B) : Safe B := by
  constructor
  · intro c e m he hm
    rw [h.issued c e he] at hm
    cases hm
  · intro m c k hm
    rw [h.standing m] at hm
    cases hm
  · intro m n c hm
    rw [h.standing m] at hm
    cases hm

omit [DecidableEq C] in
theorem safe_standing {m : I} {x : Standing C K} (h : Safe B)
    (hown : ∀ c e, B.issued c = some e → e.requestedBy = some m → x.number? = some c)
    (hcae : ∀ c k, x = .authorized c k → ∃ e, B.issued c = some e ∧ e.cae = k)
    (hapart : ∀ n c, n ≠ m → x.number? = some c → (B.standing n).number? ≠ some c) :
    Safe { B with standing := Function.update B.standing m x } := by
  constructor
  · intro c e n he hn
    by_cases hnm : n = m
    · subst hnm
      simpa using hown c e he hn
    · simpa [hnm] using h.own c e n he hn
  · intro n c k hn
    by_cases hnm : n = m
    · subst hnm
      exact hcae c k (by simpa using hn)
    · exact h.cae n c k (by simpa [hnm] using hn)
  · intro n n' c hn hn'
    by_cases hnm : n = m <;> by_cases hnm' : n' = m
    · exact hnm.trans hnm'.symm
    · subst hnm
      simp only [Function.update_self, Function.update_of_ne hnm'] at hn hn'
      exact absurd hn' (hapart n' c hnm' hn)
    · subst hnm'
      simp only [Function.update_self, Function.update_of_ne hnm] at hn hn'
      exact absurd hn (hapart n c hnm hn')
    · simp only [Function.update_of_ne hnm, Function.update_of_ne hnm'] at hn hn'
      exact h.apart n n' c hn hn'

omit [DecidableEq I] in
theorem safe_issued {c : C} {e : Entry I K} (h : Safe B) (hnone : B.issued c = none)
    (he : ∀ m, e.requestedBy = some m → (B.standing m).number? = some c) :
    Safe { B with issued := Function.update B.issued c (some e) } := by
  refine ⟨fun d e' m he' hm => ?_, fun m d k hm => ?_, h.apart⟩
  · by_cases hdc : d = c
    · subst hdc
      simp only [Function.update_self, Option.some.injEq] at he'
      exact he m (he' ▸ hm)
    · exact h.own d e' m (by simpa [hdc] using he') hm
  · obtain ⟨e', he', hk⟩ := h.cae m d k hm
    have hdc : d ≠ c := by
      rintro rfl
      rw [hnone] at he'
      cases he'
    exact ⟨e', by simpa [hdc] using he', hk⟩

theorem safe_next (h : Safe B) (hn : Next B B') : Safe B' := by
  cases hn with
  | @ask m c hm hfree =>
    refine safe_standing h ?_ nofun ?_
    · intro d e he hreq
      have hown := h.own d e m he hreq
      rw [hm] at hown
      cases hown
    · rintro n d - ⟨⟩
      exact hfree n
  | @issue m c cae hm hnone =>
    refine safe_issued h hnone ?_
    rintro _ ⟨⟩
    rw [hm]
    rfl
  | elsewhere hnone => exact safe_issued h hnone nofun
  | @authorize m c e hm he =>
    refine safe_standing h ?_ ?_ ?_
    · intro d e' he' hreq
      simpa [hm, Standing.number?] using h.own d e' m he' hreq
    · rintro _ _ ⟨⟩
      exact ⟨e, he, rfl⟩
    · rintro n _ hnm ⟨⟩ hn
      exact hnm (h.apart n m c hn (by rw [hm]; rfl))
  | @withdraw m c hm hno =>
    refine safe_standing h ?_ nofun nofun
    intro d e he hreq
    have hown := h.own d e m he hreq
    rw [hm] at hown
    cases hown
    exact absurd hreq (hno e he)

/-! ## What stays -/

theorem issued_next {c : C} {e : Entry I K} (h : B.issued c = some e) (hn : Next B B') :
    B'.issued c = some e := by
  have hother : ∀ {d : C} {e' : Entry I K}, B.issued d = none →
      Function.update B.issued d (some e') c = some e := by
    intro d e' hd
    rw [Function.update_of_ne ?_]
    · exact h
    · rintro rfl
      rw [hd] at h
      cases h
  cases hn with
  | issue _ hnone | elsewhere hnone => exact hother hnone
  | ask | authorize | withdraw => exact h

/-! ## Several invoices at once -/

/-- What one invoice may come to, with what was issued as it is. -/
inductive Settles (B : Book I C K) (m : I) : Standing C K → Prop
  | same : Settles B m (B.standing m)
  | authorize {c : C} {e : Entry I K} (h : B.standing m = .asked c) (he : B.issued c = some e) :
      Settles B m (.authorized c e.cae)
  | withdraw {c : C} (h : B.standing m = .asked c)
      (hno : ∀ e, B.issued c = some e → e.requestedBy ≠ some m) : Settles B m .free

theorem settles_one {m : I} {x : Standing C K} (h : Settles B m x) :
    spec.Follows B { B with standing := Function.update B.standing m x } := by
  cases h with
  | same =>
    rw [Function.update_eq_self]
  | authorize hm he => exact .single (.authorize hm he)
  | withdraw hm hno => exact .single (.withdraw hm hno)

/-- What becomes of one invoice says nothing of another, so they may be settled in any order. -/
theorem settles_all (ms : List I) (hissued : B'.issued = B.issued)
    (hms : ∀ m, B'.standing m ≠ B.standing m → m ∈ ms) (h : ∀ m, Settles B m (B'.standing m)) :
    spec.Follows B B' := by
  induction ms generalizing B with
  | nil =>
    have hsame : B' = B := by
      obtain ⟨standing, issued⟩ := B
      obtain ⟨standing', issued'⟩ := B'
      obtain rfl : issued' = issued := hissued
      obtain rfl : standing' = standing := funext fun m => by
        by_contra hne
        exact List.not_mem_nil (hms m hne)
      rfl
    rw [hsame]
  | cons m rest ih =>
    refine (settles_one (h m)).trans (ih hissued ?_ ?_)
    · intro n hn
      have hnm : n ≠ m := by
        rintro rfl
        simp at hn
      simp only [Function.update_of_ne hnm] at hn
      exact (List.mem_cons.mp (hms n hn)).resolve_left hnm
    · intro n
      by_cases hnm : n = m
      · subst hnm
        generalize hB : ({ B with standing := Function.update B.standing n (B'.standing n) } :
          Book I C K) = B₁
        have hsame : B₁.standing n = B'.standing n := by rw [← hB]; exact Function.update_self ..
        rw [← hsame]
        exact .same
      · have hn := h n
        generalize hx : B'.standing n = x at hn
        have hkeep : Function.update B.standing m (B'.standing m) n = B.standing n :=
          Function.update_of_ne hnm ..
        cases hn with
        | same =>
          generalize hB : ({ B with standing := Function.update B.standing m (B'.standing m) } :
            Book I C K) = B₁
          have hsame : B₁.standing n = B.standing n := by rw [← hB]; exact hkeep
          rw [← hsame]
          exact .same
        | authorize hm he => exact .authorize (hkeep.trans hm) he
        | withdraw hm hno => exact .withdraw (hkeep.trans hm) hno

end Numbering
