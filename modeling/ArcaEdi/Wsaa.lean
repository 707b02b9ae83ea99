import ArcaEdi.Certificate
import ArcaEdi.Wsfe

/-!
# Access tickets

`l10n_ar_arca_wsaa.py`. What cryptography, ARCA and PostgreSQL do while a ticket
is obtained is an input.
-/

namespace ArcaEdi

/-! ## The cache -/

/-- TOKEN_RENEWAL_MARGIN_MINUTES, in seconds. -/
def tokenRenewalMarginSeconds : Nat := 15 * 60

/-- The entry of the cache for a service. -/
def Certificate.cached (c : Certificate) (service : String) : Option Ticket :=
  (c.tokenCache.find? (·.1 == service)).map (·.2)

def readCachedToken (now : Nat) (c : Certificate) (service : String) : Option Ticket :=
  match c.cached service with
  | none => none
  | some entry => if entry.expiration ≤ now + tokenRenewalMarginSeconds then none else some entry

/-! ## Signing -/

namespace Certificate

def getCertificatePem (c : Certificate) : Except Exn CertificateFile :=
  match c.certificate with
  | some file => .ok file
  | none => .error (.userError s!"Certificate '{c.name}' has no certificate file.")

/-- `_sign_tra`. The input is what cryptography raises while it signs. -/
def signTra (c : Certificate) (signing : Option String) : Except Exn Unit := do
  let _ ← c.loadPrivateKey
  match ← c.getCertificatePem with
  | .other => throw (.library "Unable to load PEM file.")
  | .pem _ =>
    match signing with
    | some text => throw (.library text)
    | none => return ()

end Certificate

/-! ## `loginCms` -/

/-- What lxml finds in the answer. -/
inductive LoginResponse
  | unparsable
  /-- An expiry that is missing or cannot be read is none. -/
  | document (token sign : Option String) (expirationTime : Option Nat)
  deriving DecidableEq, Repr

/-- What `loginCms` may do. -/
inductive LoginReply
  | response (r : LoginResponse)
  | fault (message : String)
  | exception (text : String)
  deriving DecidableEq, Repr

def alreadyAuthenticatedMarkers : List String :=
  ["ya posee un TA valido", "ya posee un TA válido", "El CEE ya posee un TA"]

def isAlreadyAuthenticated (message : String) : Bool :=
  alreadyAuthenticatedMarkers.any (PyText.contains message)

def parseLoginResponse (now : Nat) : LoginResponse → Except Exn Ticket
  | .unparsable =>
    raiseArca .businessError "The ARCA authentication response could not be parsed."
  | .document token sign expirationTime =>
    match token, sign with
    | some token, some sign =>
      if token = "" ∨ sign = "" then
        raiseArca .businessError "The ARCA authentication response contained no credentials."
      else .ok ⟨token, sign, expirationTime.getD (now + 60 * 60)⟩
    | _, _ =>
      raiseArca .businessError "The ARCA authentication response contained no credentials."

/-- `_authenticate`, from the answer of `loginCms` to the ticket that it stores. -/
def loginCms (now : Nat) : LoginReply → Except Exn Ticket
  | .fault message =>
    if isAlreadyAuthenticated message then
      raiseArca .businessError
        ("ARCA reports that a valid access ticket already exists for this certificate and service, "
          ++ "but this database does not have it cached. Wait for the previous ticket to expire (up "
          ++ s!"to 12 hours) or use a different certificate.\n\n{message}")
    else raiseArca .businessError s!"ARCA rejected the authentication: {message}"
  | .exception text => raiseArca .aborted s!"Could not authenticate with ARCA: {text}"
  | .response r => parseLoginResponse now r

/-! ## `_get_or_refresh_token` -/

/-- What ArcaSequenceBusy becomes. -/
def tokenBusy {α : Type} : Except Exn α :=
  raiseArca .aborted
    ("Another process is already obtaining an ARCA access ticket for this certificate. Nothing was "
      ++ "sent; try again in a moment.")

/-- What one call meets outside of the caller's transaction. -/
structure TokenRun where
  lockFree : Bool
  /-- The record, as the transaction under the lock sees it. -/
  scopedCertificate : Certificate
  signing : Option String
  reply : LoginReply
  /-- What keeps a granted ticket from being stored: an expiry out of range, or PostgreSQL. -/
  refused : Option String
  deriving DecidableEq, Repr

/-- What the caller's transaction says. None where the lock is needed. -/
def beforeLock (now : Nat) (c : Certificate) (service : String) : Except Exn (Option Ticket) := do
  c.checkUsable now
  return readCachedToken now c service

/-- Under the lock, up to `loginCms`. None where it is about to be called. -/
def underLock (now : Nat) (c : Certificate) (service : String) (signing : Option String) :
    Except Exn (Option Ticket) :=
  match readCachedToken now c service with
  | some ticket => .ok (some ticket)
  | none => do
    c.signTra signing
    return none

def getOrRefreshToken (now : Nat) (c : Certificate) (service : String) (x : TokenRun) :
    Except Exn Ticket := do
  match ← beforeLock now c service with
  | some ticket => return ticket
  | none =>
    if !x.lockFree then tokenBusy
    else
      match ← underLock now x.scopedCertificate service x.signing with
      | some ticket => return ticket
      | none =>
        let ticket ← loginCms now x.reply
        match x.refused with
        | some text => throw (.library text)
        | none => return ticket

/-! ## What they do -/

variable {now : Nat} {c c' : Certificate} {service other : String} {ticket : Ticket}

theorem cached_storeToken_self : (c.storeToken service ticket).cached service = some ticket := by
  simp [Certificate.storeToken, Certificate.cached]

theorem cached_storeToken_ne (h : other ≠ service) :
    (c.storeToken service ticket).cached other = c.cached other := by
  have hfind : (c.tokenCache.filter (·.1 ≠ service)).find? (·.1 == other) =
      c.tokenCache.find? (·.1 == other) := by
    rw [List.find?_filter]
    congr 1
    funext entry
    by_cases he : entry.1 = other
    · simp [he, h]
    · simp [he]
  simp only [Certificate.storeToken, Certificate.cached, List.find?_cons]
  rw [show (service == other) = false from beq_false_of_ne (Ne.symm h), hfind]

theorem cached_nil (h : c.tokenCache = []) : c.cached service = none := by
  simp [Certificate.cached, h]

theorem readCachedToken_eq_some :
    readCachedToken now c service = some ticket ↔
      c.cached service = some ticket ∧ now + tokenRenewalMarginSeconds < ticket.expiration := by
  unfold readCachedToken
  split
  · next hnone => simp [hnone]
  · next entry hentry =>
    rw [hentry]
    split
    · next hle =>
      simp only [reduceCtorEq, Option.some.injEq, false_iff, not_and, Nat.not_lt]
      rintro rfl
      exact hle
    · next hlt =>
      simp only [Option.some.injEq, iff_self_and]
      rintro rfl
      exact Nat.not_le.mp hlt

end ArcaEdi
