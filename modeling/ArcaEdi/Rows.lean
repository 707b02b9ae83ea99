import ArcaEdi.Ownership

/-!
# Invariants of single rows

What holds of every certificate and of every attempt, in the database and in
every open transaction.
-/

namespace ArcaEdi

open Snapshot Runs

variable {W : Type} {P : Platform} {s s' : Sys W} {a : Act W} {t t' : DbTx}

/-! ## What a write leaves behind -/

/-- The attempt that a write puts on a transaction. -/
inductive Written (P : Platform) (s : Sys W) (t : DbTx) : Act W → Nat → Attempt → Prop
  | create {w : W} {reply : SoapReply UltimoAutorizado} {se : Option DbTx} {m key : Nat} {c : Intent}
      {header : FeCabReq} {detail : FeCaeDetRequest}
      (hw : s.worker w = ⟨se, .request m key (.asking t c)⟩)
      (hreq : (t.view (.move m) : Move).prepareRequest (P.today s.clock) t.view
        c.seq.documentTypeCode c.seq.posNumber c.number = .ok (header, detail)) :
      Written P s t (.lastAuthorized w reply) s.nextAttempt (newAttempt s.clock t.view m c detail)
  | outcome {a : Act W} {w : W} {se : Option DbTx} {m key i : Nat} {r : Request} {stage : Stage}
      {result : Except Exn CaeResult} {b b' : Attempt} {st : ArcaStatus}
      (hw : s.worker w = ⟨se, .request m key stage⟩) (hf : Finishes s w t i r a stage result)
      (hview : t.view (.attempt i) = some b) (hd : Describes b.toEvidence m r)
      (hev : b'.toEvidence = b.toEvidence) (hout : Outcome b' st) (hc : Concludes result b') :
      Written P s t a i b'
  | reconcile {w : W} {reply : SoapReply (Option ConsultResponse)} {t' : DbTx} {i m k : Nat}
      {env : Environment} {cuit : Int} {found : Option Found} {b b' : Attempt} {st : ArcaStatus}
      (hw : (s.worker w).target? = some (t, i))
      (hr : Reconciles s t i reply t' b m k env cuit found b' st) :
      Written P s t (.consult w reply) i b'

theorem user_attempt {now : Nat} {D : Move → Prop} {K : Nat → Company → Prop}
    (h : UserWrites now D K t t') (i : Nat) : t'.view (.attempt i) = t.view (.attempt i) := by
  induction h with
  | refl => rfl
  | tail _ hu ih =>
    cases hu <;>
    · rw [write_view_ne _ _ (by simp)]
      exact ih

theorem writes_attempt {i : Nat} {b : Attempt} (hs : Sound s) (hw : Writes P s a t t')
    (hb : t'.view (.attempt i) = some b) :
    t.view (.attempt i) = some b ∨ Written P s t a i b := by
  have hpair : ∀ {j m : Nat} {c : Attempt} {st : ArcaStatus}, t' = pairWrite t j c m st →
      t.view (.attempt i) = some b ∨ i = j ∧ b = c := by
    rintro j m c st rfl
    by_cases hij : i = j
    · subst hij
      rw [pairWrite_attempt_self] at hb
      exact .inr ⟨rfl, (Option.some.inj hb).symm⟩
    · rw [pairWrite_attempt_ne hij] at hb
      exact .inl hb
  cases hw with
  | user hw h =>
    rw [user_attempt (user_writes h)] at hb
    exact .inl hb
  | create hw h =>
    obtain ⟨header, detail, hreq, -, ht'⟩ := create_spec h
    rcases hpair ht' with h | ⟨rfl, rfl⟩
    · exact .inl h
    · exact .inr (.create hw hreq)
  | outcome hw hf h =>
    obtain ⟨-, c, hc, hd⟩ := made_of_finishes hs hw hf
    obtain ⟨b', st, ht', hev, hout, hcon⟩ := outcome_spec hc h
    rcases hpair ht' with h | ⟨rfl, rfl⟩
    · exact .inl h
    · exact .inr (.outcome hw hf hc hd hev hout hcon)
  | reconcile hw h =>
    obtain ⟨c, m, k, env, cuit, found, b', st, hr⟩ :=
      reconcile_spec (attempt_has_move hs (live_of_target hw)) h
    rcases hpair hr.write with h | ⟨rfl, rfl⟩
    · exact .inl h
    · exact .inr (.reconcile hw hr)

theorem user_certificate {now : Nat} {D : Move → Prop} {K : Nat → Company → Prop}
    (h : UserWrites now D K t t') (k : Nat) :
    Relation.ReflTransGen (CertificateWrite now) (t.view (.certificate k))
      (t'.view (.certificate k)) := by
  induction h with
  | refl => exact .refl
  | tail _ hu ih =>
    cases hu with
    | move | company | journal =>
      rw [write_view_ne _ _ (by simp)]
      exact ih
    | @certificate j v hv =>
      by_cases hkj : k = j
      · subst hkj
        rw [write_view_self]
        exact ih.tail hv
      · rw [write_view_ne _ _ (by simpa using hkj)]
        exact ih

theorem writes_certificate (hs : Sound s) (hw : Writes P s a t t') (k : Nat) :
    Relation.ReflTransGen (CertificateWrite s.clock) (t.view (.certificate k))
      (t'.view (.certificate k)) := by
  rcases writes_pair hs hw with ⟨w, op, -, -, h⟩ | ⟨i, b, m, st, rfl⟩
  · exact user_certificate (user_writes h) k
  · rw [pairWrite_certificate]

theorem user_snap {now : Nat} {D : Move → Prop} {K : Nat → Company → Prop}
    (h : UserWrites now D K t t') : t'.snap = t.snap := by
  induction h with
  | refl => rfl
  | tail _ hu ih => cases hu <;> exact ih

theorem writes_snap (hs : Sound s) (hw : Writes P s a t t') : t'.snap = t.snap := by
  rcases writes_pair hs hw with ⟨w, op, -, -, h⟩ | ⟨i, b, m, st, rfl⟩
  · exact user_snap (user_writes h)
  · rfl

/-! ## The rule -/

/-- Every certificate and every attempt of a view has its property. -/
structure Rows (C : Nat → Certificate → Prop) (A : Nat → Attempt → Prop) (v : View) : Prop where
  certificates : ∀ k, C k (v (.certificate k))
  attempts : ∀ i b, v (.attempt i) = some b → A i b

/-- A property of certificates and one of attempts, in all that is committed or seen. -/
structure AllRows (C : Nat → Certificate → Prop) (A : Nat → Attempt → Prop) (s : Sys W) : Prop where
  db : Rows C A s.db.row
  views : ∀ t, Live s t → Rows C A t.view

theorem allRows_mono {C C' : Nat → Certificate → Prop} {A A' : Nat → Attempt → Prop}
    (h : AllRows C A s) (hC : ∀ k c, C k c → C' k c) (hA : ∀ i b, A i b → A' i b) :
    AllRows C' A' s :=
  ⟨⟨fun k => hC k _ (h.db.certificates k), fun i b hb => hA i b (h.db.attempts i b hb)⟩,
    fun t ht => ⟨fun k => hC k _ ((h.views t ht).certificates k),
      fun i b hb => hA i b ((h.views t ht).attempts i b hb)⟩⟩

variable [DecidableEq W]

theorem allRows_step {C : Nat → Certificate → Prop} {A : Nat → Attempt → Prop} (hs : Sound s)
    (hcert : ∀ k c c', CertificateWrite s.clock c c' → C k c → C k c')
    (htoken : ∀ k c new, C k c → C k (c.storeToken "wsfe" new))
    (hwritten : ∀ t i b, Live s t → Rows C A t.view → Written P s t a i b → A i b)
    (hrows : AllRows C A s) (h : Step P s a s') : AllRows C A s' := by
  have hall : Rows C A s'.db.row ∧ ∀ t, Live s' t → Rows C A t.view := by
    refine views_step (D := fun db => Rows C A db.row) (T := fun t => Rows C A t.view) hs h hrows.db
      ?_ ?_ ?_ hrows.db hrows.views
    · intro k new
      refine ⟨fun j => ?_, fun i b hb => ?_⟩
      · by_cases hjk : j = k
        · subst hjk
          rw [ticketTx, write_view_self]
          exact htoken j _ new (hrows.db.certificates j)
        · rw [ticketTx, write_view_ne _ _ (by simpa using hjk)]
          exact hrows.db.certificates j
      · rw [ticketTx, write_view_ne _ _ (by simp)] at hb
        exact hrows.db.attempts i b hb
    · intro t t' hw ht
      refine ⟨fun k => ?_, fun i b hb => ?_⟩
      · have hchain := writes_certificate hs hw k
        generalize (t'.view (.certificate k) : Certificate) = c at hchain ⊢
        induction hchain with
        | refl => exact ht.certificates k
        | tail _ hc ih => exact hcert k _ _ hc ih
      · rcases writes_attempt hs hw hb with hold | hnew
        · exact ht.attempts i b hold
        · exact hwritten t i b hw.live ht hnew
    · intro t ht hc hT
      refine ⟨fun k => ?_, fun i b hb => ?_⟩
      · rcases apply_row s.db t (.certificate k) with h | h <;> rw [h]
        · exact hrows.db.certificates k
        · exact hT.certificates k
      · rcases apply_row s.db t (.attempt i) with h | h <;> rw [h] at hb
        · exact hrows.db.attempts i b hb
        · exact hT.attempts i b hb
  exact ⟨hall.1, hall.2⟩

omit [DecidableEq W] in
theorem initial_allRows {C : Nat → Certificate → Prop} {A : Nat → Attempt → Prop} (hs : Initial s)
    (hC : ∀ k, C k (s.db.row (.certificate k))) : AllRows C A s := by
  refine ⟨⟨hC, fun i b hb => ?_⟩, fun t ht => absurd ht (initial_not_live hs t)⟩
  rw [hs.attempts i] at hb
  cases hb

end ArcaEdi
