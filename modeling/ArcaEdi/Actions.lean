import ArcaEdi.Lib.Raise
import ArcaEdi.Certificate

/-!
# What each certificate action does

One equivalence for each action: when it returns, and with which record.
-/

namespace ArcaEdi.Certificate

variable {now : Nat} {c c' : Certificate}

/-- The record with a new key pair and its CSR. -/
def generated (c : Certificate) (key : PrivateKey) : Certificate :=
  { c with
    privateKey := some key
    csrPem := some ⟨key.publicNumbers, s!"CUIT {c.getHolderCuit}"⟩
    state := .csrGenerated }

/-- The record with a new certificate. -/
def installed (c : Certificate) (cert : X509) : Certificate :=
  { c with
    certificate := some (.pem cert)
    certDateStart := some cert.notBefore
    certDateEnd := some cert.notAfter
    state := .active
    tokenCache := [] }

/-- The certificate is for the record's key and holder, and it is valid now. -/
structure Accepts (c : Certificate) (now : Nat) (cert : X509) : Prop where
  key : ∃ key, c.privateKey = some key ∧ cert.publicNumbers = key.publicNumbers
  holder : c.checkCertificateHolderCuit cert = .ok ()
  notExpired : now ≤ cert.notAfter
  started : cert.notBefore ≤ now

theorem loadPrivateKey_eq_ok {key : PrivateKey} :
    c.loadPrivateKey = .ok key ↔ c.privateKey = some key := by
  unfold loadPrivateKey
  split <;> simp_all

theorem generate_eq_ok {canWrite : Bool} {key : PrivateKey} :
    c.actionGenerateKeyAndCsr canWrite key = .ok c' ↔
      canWrite = true ∧ c.state = .draft ∧ c' = c.generated key := by
  unfold actionGenerateKeyAndCsr
  simp only [Raise.check_eq_ok, Raise.pure_eq_ok]
  constructor
  · rintro ⟨hw, -, hd, rfl⟩
    exact ⟨by simpa using hw, not_not.mp hd, rfl⟩
  · rintro ⟨rfl, hd, rfl⟩
    exact ⟨by simp, by simp [hd], by simp [hd], rfl⟩

theorem process_eq_ok {file : Option X509} :
    c.actionProcessCertificate now file = .ok c' ↔
      ∃ cert, file = some cert ∧ c.Accepts now cert ∧ c' = c.installed cert := by
  unfold actionProcessCertificate
  constructor
  · intro h
    split at h
    · next cert =>
      simp only [Raise.bind_eq_ok, Raise.check_eq_ok, Raise.pure_eq_ok] at h
      obtain ⟨key, hkey, hmatch, ⟨⟩, hholder, hexpired, hstarted, rfl⟩ := h
      exact ⟨cert, rfl, ⟨⟨key, loadPrivateKey_eq_ok.mp hkey, not_not.mp hmatch⟩, hholder,
        Nat.not_lt.mp hexpired, Nat.not_lt.mp hstarted⟩, rfl⟩
    · exact absurd h Raise.throw_ne_ok
  · rintro ⟨cert, rfl, ⟨⟨key, hkey, hmatch⟩, hholder, hexpired, hstarted⟩, rfl⟩
    simp only [Raise.bind_eq_ok, Raise.check_eq_ok, Raise.pure_eq_ok]
    exact ⟨key, loadPrivateKey_eq_ok.mpr hkey, not_not.mpr hmatch, (), hholder,
      Nat.not_lt.mpr hexpired, Nat.not_lt.mpr hstarted, rfl⟩

end ArcaEdi.Certificate
