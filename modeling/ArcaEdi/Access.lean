import Mathlib.Data.List.Induction
import ArcaEdi.Actions

/-!
# Who may change a certificate

The public actions of `l10n_ar_arca_certificate.py`, called by a user with the
access that the ACLs and the record rules give. `action_generate_key_and_csr`
asks for write access. The other two go straight to `sudo`.
-/

namespace ArcaEdi

/-! ## Requests -/

/-- What a user may do with one record. -/
structure Access where
  read : Bool
  write : Bool
  deriving DecidableEq, Repr

inductive ActionCall
  | generateKeyAndCsr (key : PrivateKey)
  | processCertificate (file : Option X509)
  | revoke
  deriving DecidableEq, Repr

/-- One call. `action_process_certificate` reads the record's name without `sudo`. -/
def ActionCall.run (user : Access) (now : Nat) (c : Certificate) : ActionCall → Except Exn Certificate
  | .generateKeyAndCsr key => c.actionGenerateKeyAndCsr user.write key
  | .processCertificate file => do
    let c' ← c.actionProcessCertificate now file
    if !user.read then throw .accessError
    return c'
  | .revoke => .ok c.actionRevoke

/-- The record after one request, with the clock that it sees. A call that raises is rolled back. -/
def afterCall (user : Access) (c : Certificate) (call : Nat × ActionCall) : Certificate :=
  match call.2.run user call.1 c with
  | .ok c' => c'
  | .error _ => c

def afterCalls (user : Access) (c : Certificate) (calls : List (Nat × ActionCall)) : Certificate :=
  calls.foldl (afterCall user) c

/-- The fields that the actions write. -/
structure Material where
  privateKey : Option PrivateKey
  certificate : Option CertificateFile
  csrPem : Option Csr
  tokenCache : List (String × Ticket)
  certDateStart : Option Nat
  certDateEnd : Option Nat
  state : CertificateState
  deriving DecidableEq, Repr

namespace Certificate

def material (c : Certificate) : Material :=
  ⟨c.privateKey, c.certificate, c.csrPem, c.tokenCache, c.certDateStart, c.certDateEnd, c.state⟩

/-- There is nothing left that `action_revoke` would take away. -/
def Dropped (c : Certificate) : Prop := c.state = .revoked ∧ c.privateKey = none ∧ c.tokenCache = []

instance (c : Certificate) (now : Nat) (cert : X509) : Decidable (c.Accepts now cert) :=
  decidable_of_iff ((∃ key ∈ c.privateKey, cert.publicNumbers = key.publicNumbers) ∧
      c.checkCertificateHolderCuit cert = .ok () ∧ now ≤ cert.notAfter ∧ cert.notBefore ≤ now)
    ⟨fun ⟨h1, h2, h3, h4⟩ => ⟨h1, h2, h3, h4⟩, fun ⟨h1, h2, h3, h4⟩ => ⟨h1, h2, h3, h4⟩⟩

/-- The certificate that a request of a user who may only read would store. -/
def uploaded (c : Certificate) (user : Access) : Nat × ActionCall → Option X509
  | (now, .processCertificate (some cert)) =>
    if user.read = true ∧ c.Accepts now cert then some cert else none
  | _ => none

/-- The record is as `action_process_certificate` would leave it with this certificate. -/
structure Holds (c : Certificate) (cert : X509) : Prop where
  active : c.state = .active
  certificate : c.certificate = some (.pem cert)
  start : c.certDateStart = some cert.notBefore
  stop : c.certDateEnd = some cert.notAfter
  noTicket : c.tokenCache = []

end Certificate

/-- Nothing is left to revoke where the calls revoke, and the last certificate
that they store is in place already. -/
structure Harmless (user : Access) (c : Certificate) (calls : List (Nat × ActionCall)) : Prop where
  revoke : (∃ call ∈ calls, call.2 = .revoke) → c.Dropped
  upload : ∀ cert, (calls.filterMap (c.uploaded user)).getLast? = some cert → c.Holds cert

/-! ## One call -/

variable {user : Access} {c : Certificate} {call : Nat × ActionCall} {calls : List (Nat × ActionCall)}

theorem run_eq_ok {c' : Certificate} (hu : user.write = false) :
    call.2.run user call.1 c = .ok c' ↔
      (call.2 = .revoke ∧ c' = c.actionRevoke) ∨
        ∃ cert, c.uploaded user call = some cert ∧ c' = c.installed cert := by
  obtain ⟨now, call⟩ := call
  cases call with
  | revoke => simp [ActionCall.run, Certificate.uploaded, eq_comm]
  | generateKeyAndCsr key =>
    simp [ActionCall.run, Certificate.uploaded, Certificate.generate_eq_ok, hu]
  | processCertificate file =>
    simp only [ActionCall.run, Raise.bind_eq_ok, Certificate.process_eq_ok, Raise.check_eq_ok,
      Raise.pure_eq_ok]
    cases file with
    | none => simp [Certificate.uploaded]
    | some cert =>
      simp only [Certificate.uploaded]
      constructor
      · rintro ⟨a, ⟨cert', ⟨⟩, ha, rfl⟩, hr, rfl⟩
        exact .inr ⟨cert, if_pos ⟨by simpa using hr, ha⟩, rfl⟩
      · rintro (⟨h, -⟩ | ⟨cert', h, rfl⟩)
        · cases h
        · split at h <;> cases h
          next hc => exact ⟨_, ⟨cert, rfl, hc.2, rfl⟩, by simp [hc.1], rfl⟩

theorem uploaded_revoke (h : call.2 = .revoke) : c.uploaded user call = none := by
  obtain ⟨now, call⟩ := call
  cases h
  rfl

theorem afterCall_cases (hu : user.write = false) (c : Certificate) (call : Nat × ActionCall) :
    (call.2 = .revoke ∧ afterCall user c call = c.actionRevoke) ∨
      (call.2 ≠ .revoke ∧ ∃ cert, c.uploaded user call = some cert ∧
        afterCall user c call = c.installed cert) ∨
      (call.2 ≠ .revoke ∧ c.uploaded user call = none ∧ afterCall user c call = c) := by
  unfold afterCall
  split
  · next c' hrun =>
    rcases (run_eq_ok hu).mp hrun with ⟨hr, rfl⟩ | ⟨cert, hcert, rfl⟩
    · exact .inl ⟨hr, rfl⟩
    · refine .inr (.inl ⟨?_, cert, hcert, rfl⟩)
      rintro hr
      rw [uploaded_revoke hr] at hcert
      cases hcert
  · next hrun =>
    have hno : ∀ c', call.2.run user call.1 c ≠ .ok c' := by simp [hrun]
    refine .inr (.inr ⟨fun hr => hno _ ((run_eq_ok hu).mpr (.inl ⟨hr, rfl⟩)), ?_, rfl⟩)
    by_contra hne
    obtain ⟨cert, hcert⟩ := Option.ne_none_iff_exists'.mp hne
    exact hno _ ((run_eq_ok hu).mpr (.inr ⟨cert, hcert, rfl⟩))

theorem uploaded_none (hkey : c.privateKey = none) : c.uploaded user call = none := by
  unfold Certificate.uploaded
  split
  · rw [if_neg]
    rintro ⟨-, ha⟩
    obtain ⟨key, hk, -⟩ := ha.key
    rw [hkey] at hk
    cases hk
  · rfl

/-! ## All calls -/

theorem afterCalls_snoc :
    afterCalls user c (calls ++ [call]) = afterCall user (afterCalls user c calls) call := by
  simp [afterCalls]

theorem revoke_dropped (hd : c.Dropped) : c.actionRevoke = c := by
  obtain ⟨hstate, hkey, hcache⟩ := hd
  cases c
  simp_all [Certificate.actionRevoke]

theorem dropped_stays (hu : user.write = false) (hd : c.Dropped) : afterCall user c call = c := by
  rcases afterCall_cases hu c call with ⟨-, h⟩ | ⟨-, cert, hcert, -⟩ | ⟨-, -, h⟩
  · rw [h, revoke_dropped hd]
  · rw [uploaded_none hd.2.1] at hcert
    cases hcert
  · exact h

theorem afterCalls_dropped (hu : user.write = false) (hd : c.Dropped) :
    afterCalls user c calls = c := by
  induction calls using List.reverseRecOn with
  | nil => rfl
  | append_singleton calls call ih => rw [afterCalls_snoc, ih, dropped_stays hu hd]

theorem afterCalls_revoked (hu : user.write = false) (hr : ∃ call ∈ calls, call.2 = .revoke) :
    (afterCalls user c calls).Dropped := by
  induction calls using List.reverseRecOn with
  | nil => simp at hr
  | append_singleton calls call ih =>
    rw [afterCalls_snoc]
    by_cases hbefore : ∃ call ∈ calls, call.2 = .revoke
    · rw [dropped_stays hu (ih hbefore)]
      exact ih hbefore
    · obtain ⟨call', hmem, hcall'⟩ := hr
      rcases List.mem_append.mp hmem with hmem | hmem
      · exact absurd ⟨call', hmem, hcall'⟩ hbefore
      · obtain rfl := List.mem_singleton.mp hmem
        rcases afterCall_cases hu (afterCalls user c calls) call' with
          ⟨-, h⟩ | ⟨hne, -⟩ | ⟨hne, -⟩
        · rw [h]
          exact ⟨rfl, rfl, rfl⟩
        · exact absurd hcall' hne
        · exact absurd hcall' hne

theorem uploaded_installed (cert : X509) :
    (c.installed cert).uploaded user call = c.uploaded user call := by
  have haccepts : ∀ now x, (c.installed cert).Accepts now x ↔ c.Accepts now x :=
    fun now x => ⟨fun ⟨h1, h2, h3, h4⟩ => ⟨h1, h2, h3, h4⟩, fun ⟨h1, h2, h3, h4⟩ => ⟨h1, h2, h3, h4⟩⟩
  unfold Certificate.uploaded
  split
  · simp only [haccepts]
  · rfl

theorem afterCalls_uploads (hu : user.write = false) (hr : ¬∃ call ∈ calls, call.2 = .revoke) :
    afterCalls user c calls =
      match (calls.filterMap (c.uploaded user)).getLast? with
      | some cert => c.installed cert
      | none => c := by
  induction calls using List.reverseRecOn with
  | nil => rfl
  | append_singleton calls call ih =>
    have hlast : call.2 ≠ .revoke := fun h => hr ⟨call, by simp, h⟩
    have hsame : (afterCalls user c calls).uploaded user call = c.uploaded user call := by
      rw [ih fun ⟨x, hx, h⟩ => hr ⟨x, List.mem_append_left _ hx, h⟩]
      split
      · exact uploaded_installed _
      · rfl
    rw [afterCalls_snoc, List.filterMap_append]
    rcases afterCall_cases hu (afterCalls user c calls) call with
      ⟨h, -⟩ | ⟨-, cert, hcert, h⟩ | ⟨-, hnone, h⟩
    · exact absurd h hlast
    · rw [hsame] at hcert
      rw [h, ih fun ⟨x, hx, h⟩ => hr ⟨x, List.mem_append_left _ hx, h⟩]
      simp only [List.filterMap_cons, hcert, List.filterMap_nil, List.getLast?_concat]
      split <;> rfl
    · rw [hsame] at hnone
      rw [h, ih fun ⟨x, hx, h⟩ => hr ⟨x, List.mem_append_left _ hx, h⟩]
      simp [hnone]

/-! ## What a reader can change -/

theorem installed_material {cert : X509} :
    (c.installed cert).material = c.material ↔ c.Holds cert := by
  simp only [Certificate.material, Certificate.installed, Material.mk.injEq, true_and]
  constructor
  · rintro ⟨h1, h2, h3, h4, h5⟩
    exact ⟨h5.symm, h1.symm, h3.symm, h4.symm, h2.symm⟩
  · rintro ⟨h1, h2, h3, h4, h5⟩
    exact ⟨h2.symm, h5.symm, h3.symm, h4.symm, h1.symm⟩

/-- Without write access, the calls leave the record as it was exactly when they
are harmless: the code itself does not stop them. -/
theorem reader_changes_nothing (user : Access) (c : Certificate) (calls : List (Nat × ActionCall))
    (hu : user.write = false) :
    (afterCalls user c calls).material = c.material ↔ Harmless user c calls := by
  by_cases hr : ∃ call ∈ calls, call.2 = .revoke
  · constructor
    · intro h
      obtain ⟨hstate, hkey, hcache⟩ := afterCalls_revoked (c := c) hu hr
      have hd : c.Dropped := by
        simp only [Certificate.material, Material.mk.injEq] at h
        exact ⟨h.2.2.2.2.2.2 ▸ hstate, h.1 ▸ hkey, h.2.2.2.1 ▸ hcache⟩
      have hnone : calls.filterMap (c.uploaded user) = [] := by
        rw [List.filterMap_eq_nil_iff]
        exact fun call _ => uploaded_none hd.2.1
      exact ⟨fun _ => hd, fun cert hcert => by simp [hnone] at hcert⟩
    · intro h
      rw [afterCalls_dropped hu (h.revoke hr)]
  · rw [afterCalls_uploads hu hr]
    split
    · next cert hcert =>
      rw [installed_material]
      exact ⟨fun h => ⟨fun he => absurd he hr, fun x hx => by rw [hcert] at hx; cases hx; exact h⟩,
        fun h => h.upload cert hcert⟩
    · next hnone =>
      exact ⟨fun _ => ⟨fun he => absurd he hr, fun x hx => by simp [hnone] at hx⟩, fun _ => rfl⟩

/-- An invoicing user may read certificates and may not write them. -/
def invoicingUser : Access := ⟨true, false⟩

def activeCertificate : Certificate where
  name := "arca"
  companyId := 0
  holderCuit := "20-12345678-6"
  environment := .testing
  state := .active
  privateKey := some ⟨7⟩
  csrPem := some ⟨7, "CUIT 20123456786"⟩
  certificate := some (.pem ⟨7, none, 0, 1000000⟩)
  certDateStart := some 0
  certDateEnd := some 1000000

theorem reader_changes_nothing_refused :
    (afterCalls invoicingUser activeCertificate
      [(5, .generateKeyAndCsr ⟨8⟩), (6, .processCertificate (some ⟨9, none, 0, 1000⟩))]).material =
      activeCertificate.material := by
  refine (reader_changes_nothing invoicingUser activeCertificate _ rfl).mpr ⟨by simp, ?_⟩
  intro cert hcert
  have hnone : [(5, .generateKeyAndCsr ⟨8⟩), (6, .processCertificate (some ⟨9, none, 0, 1000⟩))].filterMap
      (activeCertificate.uploaded invoicingUser) = [] := by decide
  rw [hnone] at hcert
  cases hcert

theorem reader_revokes :
    invoicingUser.write = false ∧
      (afterCalls invoicingUser activeCertificate [(5, .revoke)]).privateKey = none ∧
      (afterCalls invoicingUser activeCertificate [(5, .revoke)]).material ≠
        activeCertificate.material := by
  decide

end ArcaEdi
