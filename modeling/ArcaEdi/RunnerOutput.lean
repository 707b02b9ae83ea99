import ArcaEdi.Lib.FloatText
import ArcaEdi.Preflight

/-!
# What the runner prints

`tools/arca_homologation_runner.py` from its mode to its last line. All that it tells, and
how it ends, is what it would tell of a database without keys, certificates, tokens and
signs.
-/

namespace ArcaEdi

open Homologation PyText

namespace Runner

/-! ## The mode -/

inductive Mode
  | preflight | ticketStatus
  deriving DecidableEq, Repr

def Mode.name : Mode → String
  | preflight => "preflight"
  | ticketStatus => "ticket-status"

def modeVariable : String := "ARCA_HOMO_MODE"
def availableModes : List Mode := [.preflight, .ticketStatus]

/-- `text.lower()`. The Kelvin sign is the one letter beyond ASCII that becomes one of ASCII. -/
def lowerMode (text : String) : String :=
  lower (String.ofList (text.toList.map fun c => if c.toNat = 0x212a then 'k' else c))

variable {T : Type}

def resolveMode (environ : Bootstrap.Environ T) : Option Mode :=
  let requested := lowerMode (strip ((environ.get modeVariable).getD ""))
  availableModes.find? (·.name == requested)

/-! ## Lines -/

/-- A program that prints lines and may raise. -/
abbrev Console := ExceptT Exn (StateM (List String))

def print (line : String) : Console Unit := modify (· ++ [line])

/-- A check prints nothing, and may end the run. -/
def check {α : Type} : Except Exn α → Console α
  | .ok a => return a
  | .error e => throw e

/-- What the process is told beside the database. -/
structure Process (T : Type) where
  /-- The row of `pg_stat_ssl`. -/
  tls : Option (Bool × String)
  environ : Bootstrap.Environ T
  latestVersion : String
  /-- `repr` of the variable of the mode. -/
  modeRepr : String
  now : Nat

namespace Printing

def checkTls (tls : Option (Bool × String)) : Console Unit := do
  check (Runner.checkTls (tls.map (·.1)))
  let version := (tls.map (·.2)).getD ""
  print s!"[runner] TLS verificado en la conexión (version={version})"

def checkModuleInstalled (latestVersion : String) (db : Database T) : Console Unit := do
  check (Runner.checkModuleInstalled db)
  print s!"[runner] Módulo instalado (versión {latestVersion})"

def checkInstalledSha (environ : Bootstrap.Environ T) (db : Database T) : Console Unit := do
  check (Runner.checkInstalledSha environ db)
  let recorded := db.installedSha.getD ""
  print s!"[runner] SHA coincide: {recorded}"

def checkAutoRequestIsOff (db : Database T) : Console Unit := do
  check (Runner.checkAutoRequestIsOff db)
  let companies := (db.companies.search (·.active)).length
  print s!"[runner] auto_request_cae apagado en {companies} compañía(s)"

def checkEnvironment (k : Nat) (db : Database T) : Console Unit := do
  check (Runner.checkEnvironment k db)
  print "[runner] environment=testing"

section Material

variable (crypto : Cryptography T)

def checkMaterialPresent (k : Nat) (db : Database T) : Console Unit := do
  check (Runner.checkMaterialPresent crypto k db)
  print "[runner] Certificado y clave privada presentes"

/-- It prints what it measures before it judges it. -/
def checkMaterialStorage (k : Nat) (db : Database T) : Console Unit := do
  let legacy := db.legacyCount k
  for field in Bootstrap.materialFields do
    let column := if db.materialColumns.contains field then "True" else "False"
    let bytes := ((Bootstrap.readMaterialSizes crypto k db field).map toString).getD "None"
    print s!"[runner] almacenamiento {field}: columna={column} bytes={bytes}"
  print s!"[runner] adjuntos antiguos para esos campos: {legacy}"
  check (Runner.checkMaterialStorage crypto k db)

def runPreflight (process : Process T) (db : Database T) : Console Nat := do
  print "[runner] --- preflight ---"
  checkTls process.tls
  checkModuleInstalled process.latestVersion db
  checkInstalledSha process.environ db
  checkAutoRequestIsOff db
  let certificate ← check (theCertificate db)
  checkEnvironment certificate db
  checkMaterialPresent crypto certificate db
  checkMaterialStorage crypto certificate db
  print s!"[runner] preflight OK (certificado id={certificate})"
  return certificate

end Material

/-- `str(value)`. A list or a dict that is printed is empty. -/
def shown : Option Json → String
  | none | some .null => "None"
  | some (.bool b) => if b then "True" else "False"
  | some (.int n) => toString n
  | some (.float x) => String.ofList (FloatText.floatRepr 6 x)
  | some (.str s) => s
  | some (.arr _) => "[]"
  | some (.obj _) => "\x7b\x7d"

/-- The line of one ticket. Of the ticket itself it has nothing. -/
def ticketLine (service : String) : TicketLine → String
  | .unreadable =>
    s!"[runner] servicio={service} vencimiento ilegible; el ticket no se considera reutilizable"
  | .expires raw usable =>
    let expiration := shown raw
    let reusable := if usable then "sí" else "no"
    s!"[runner] servicio={service} vence={expiration} reutilizable={reusable} "
      ++ s!"(margen {ticketRenewalMarginMinutes} min)"

def runTicketStatus (now k : Nat) (db : Database T) : Console Unit := do
  print "[runner] --- ticket-status ---"
  let certificate ← check (db.browse k)
  if !certificate.tokenCache.truthy then
    print "[runner] Cache de TA: vacío (una sesión tendría que autenticar)"
    return ()
  let some entries := certificate.tokenCache.fields?
    | throw (.library "AttributeError: no attribute 'items'")
  for (service, entry) in entries.mergeSort fun a b => decide (a.1 ≤ b.1) do
    let line ← check (ticketStatus now entry)
    print (ticketLine service line)

def main (crypto : Cryptography T) (process : Process T) (db : Database T) : Console Unit := do
  let some mode := resolveMode process.environ
    | let modes := ", ".intercalate (availableModes.map (·.name))
      throw (systemExit
        (s!"[runner] ABORTA: {modeVariable}={process.modeRepr} no es un modo válido.\n"
          ++ s!"Modos disponibles: {modes}"))
  let name := mode.name
  print s!"[runner] modo={name}"
  let certificate ← runPreflight crypto process db
  if mode = .ticketStatus then runTicketStatus process.now certificate db
  print "[runner] Listo. Nada fue modificado."

end Printing

end Runner

/-! ## The database without its secrets -/

namespace Homologation

variable {T : Type}

/-- A text is its size, and nothing is read in it. -/
def sizesOnly : Cryptography Nat := ⟨id, fun _ => none, fun _ => none⟩

/-- An entry without its token and its sign. -/
def redactedEntry : Json → Json
  | .obj fields => .obj (fields.filter fun field => field.1 ∉ ["token", "sign"])
  | entry => entry

def redactedField (field : String × Json) : String × Json := (field.1, redactedEntry field.2)

def redactedCache : Json → Json
  | .obj entries => .obj (entries.map redactedField)
  | cache => cache

def StoredCertificate.redacted (crypto : Cryptography T) (row : StoredCertificate T) :
    StoredCertificate Nat where
  name := row.name
  companyId := row.companyId
  holderCuit := row.holderCuit
  environment := row.environment
  state := row.state
  privateKey := row.privateKey.map crypto.size
  certificate := row.certificate.map crypto.size
  certDateStart := row.certDateStart
  certDateEnd := row.certDateEnd
  tokenCache := redactedCache row.tokenCache

/-- The database without its secrets. -/
def Database.redacted (crypto : Cryptography T) (db : Database T) : Database Nat where
  moduleInstalled := db.moduleInstalled
  materialColumns := db.materialColumns
  companies := db.companies
  certificates := db.certificates.mapRows (·.redacted crypto)
  modelData := db.modelData
  otherRecords := db.otherRecords
  legacyAttachments := db.legacyAttachments
  installedSha := db.installedSha
  attempts := []

end Homologation

namespace Runner

variable {T : Type}

/-- The process with the variables that the runner reads, and no others. -/
def Process.redacted (process : Process T) : Process Nat :=
  { tls := process.tls
    environ :=
      { get := fun name =>
          if name ∈ [modeVariable, "ARCA_HOMO_CODE_SHA"] then process.environ.get name else none
        material := fun _ => none }
    latestVersion := process.latestVersion
    modeRepr := process.modeRepr
    now := process.now }

/-! ## What each check makes of it -/

variable {crypto : Cryptography T} {process : Process T} {db : Database T} {k : Nat}

theorem resolveMode_redacted :
    resolveMode process.redacted.environ = resolveMode process.environ := rfl

theorem present_redacted (value : Option T) :
    sizesOnly.present (value.map crypto.size) = crypto.present value := by
  cases value <;> rfl

theorem browse_redacted :
    (db.redacted crypto).browse k = (db.browse k).map (·.redacted crypto) := by
  unfold Database.browse
  have hrow : (db.redacted crypto).certificates.lookup k =
      (db.certificates.lookup k).map (·.redacted crypto) := Table.lookup_mapRows
  rw [hrow]
  cases db.certificates.lookup k <;> rfl

theorem theCertificate_redacted : theCertificate (db.redacted crypto) = theCertificate db := by
  have hkeys : (db.redacted crypto).certificates.keys = db.certificates.keys := Table.keys_mapRows
  unfold theCertificate
  rw [hkeys]

theorem checkEnvironment_redacted :
    checkEnvironment k (db.redacted crypto) = checkEnvironment k db := by
  unfold checkEnvironment
  rw [browse_redacted]
  cases db.browse k <;> rfl

theorem checkMaterialPresent_redacted :
    checkMaterialPresent sizesOnly k (db.redacted crypto) = checkMaterialPresent crypto k db := by
  unfold checkMaterialPresent
  rw [browse_redacted]
  cases db.browse k with
  | error e => rfl
  | ok row =>
    have hfield : ∀ field : String,
        (if field = "private_key" then (row.redacted crypto).privateKey
          else (row.redacted crypto).certificate) =
        (if field = "private_key" then row.privateKey else row.certificate).map crypto.size := by
      intro field
      split <;> rfl
    simp only [Except.map, bind, Except.bind, hfield, present_redacted]

theorem readMaterialSizes_redacted :
    Bootstrap.readMaterialSizes sizesOnly k (db.redacted crypto) =
      Bootstrap.readMaterialSizes crypto k db := by
  funext field
  have hrow : (db.redacted crypto).certificates.lookup k =
      (db.certificates.lookup k).map (·.redacted crypto) := Table.lookup_mapRows
  unfold Bootstrap.readMaterialSizes
  rw [hrow]
  cases db.certificates.lookup k with
  | none => rfl
  | some row =>
    simp only [Option.map_some, Option.bind_eq_bind, Option.bind_some, StoredCertificate.redacted]
    split
    · cases row.privateKey <;> rfl
    · cases row.certificate <;> rfl

theorem checkMaterialStorage_redacted :
    checkMaterialStorage sizesOnly k (db.redacted crypto) = checkMaterialStorage crypto k db := by
  unfold checkMaterialStorage
  rw [readMaterialSizes_redacted]
  rfl

/-! ## The tickets -/

theorem lookup_filter {fields : List (String × Json)} {key : String} {p : String → Bool}
    (h : p key = true) : (fields.filter fun field => p field.1).lookup key = fields.lookup key := by
  induction fields with
  | nil => rfl
  | cons field fields ih =>
    obtain ⟨name, value⟩ := field
    rw [List.filter_cons]
    by_cases heq : key = name
    · subst heq
      rw [if_pos h, List.lookup_cons_self, List.lookup_cons_self]
    · rw [TokenCache.lookup_of_ne heq, ← ih]
      split
      · exact TokenCache.lookup_of_ne heq
      · rfl

/-- What `run_ticket_status` makes of the expiry in an entry. -/
def expiryLine (now : Nat) (raw : Option Json) : Except Exn TicketLine :=
  match raw with
  | none => return .expires raw (ticketIsUsable none now)
  | some value =>
    if !value.truthy then return .expires raw (ticketIsUsable none now)
    else match Datetime.ofJson value with
      | .error _ => return .unreadable
      | .ok expiresAt => return .expires raw (ticketIsUsable (some expiresAt) now)

theorem ticketStatus_obj (now : Nat) (fields : List (String × Json)) :
    ticketStatus now (.obj fields) = expiryLine now (fields.lookup "expiration") := by
  cases fields <;> rfl

theorem ticketStatus_redacted (now : Nat) (entry : Json) :
    ticketStatus now (redactedEntry entry) = ticketStatus now entry := by
  cases entry with
  | obj fields =>
    rw [redactedEntry, ticketStatus_obj, ticketStatus_obj]
    exact congrArg _ (lookup_filter (p := fun key => decide (key ∉ ["token", "sign"])) (by decide))
  | _ => rfl

theorem truthy_redacted (cache : Json) : (redactedCache cache).truthy = cache.truthy := by
  cases cache with
  | obj entries => cases entries <;> rfl
  | _ => rfl

theorem fields_redacted (cache : Json) :
    (redactedCache cache).fields? = cache.fields?.map (·.map redactedField) := by
  cases cache <;> rfl

theorem sorted_redacted (entries : List (String × Json)) :
    (entries.map redactedField).mergeSort (fun a b => decide (a.1 ≤ b.1)) =
      (entries.mergeSort fun a b => decide (a.1 ≤ b.1)).map redactedField :=
  (List.map_mergeSort (f := redactedField) fun _ _ _ _ => rfl).symm

theorem runTicketStatus_redacted {now : Nat} :
    Printing.runTicketStatus now k (db.redacted crypto) = Printing.runTicketStatus now k db := by
  unfold Printing.runTicketStatus
  rw [browse_redacted]
  cases db.browse k with
  | error e => rfl
  | ok row =>
    have hcache : (row.redacted crypto).tokenCache = redactedCache row.tokenCache := rfl
    simp only [Except.map, check, pure_bind, hcache, truthy_redacted, fields_redacted]
    cases row.tokenCache.fields? with
    | none => rfl
    | some entries =>
      simp only [Option.map_some, sorted_redacted, List.forIn_map, redactedField,
        ticketStatus_redacted]

theorem runPreflight_redacted :
    Printing.runPreflight sizesOnly process.redacted (db.redacted crypto) =
      Printing.runPreflight crypto process db := by
  have hmodule : Printing.checkModuleInstalled process.redacted.latestVersion (db.redacted crypto) =
      Printing.checkModuleInstalled process.latestVersion db := rfl
  have hsha : Printing.checkInstalledSha process.redacted.environ (db.redacted crypto) =
      Printing.checkInstalledSha process.environ db := rfl
  have hrequest : Printing.checkAutoRequestIsOff (db.redacted crypto) =
      Printing.checkAutoRequestIsOff db := rfl
  have htls : Printing.checkTls process.redacted.tls = Printing.checkTls process.tls := rfl
  have henvironment : ∀ k, Printing.checkEnvironment k (db.redacted crypto) =
      Printing.checkEnvironment k db := fun k => by
    rw [Printing.checkEnvironment, checkEnvironment_redacted, Printing.checkEnvironment]
  have hpresent : ∀ k, Printing.checkMaterialPresent sizesOnly k (db.redacted crypto) =
      Printing.checkMaterialPresent crypto k db := fun k => by
    rw [Printing.checkMaterialPresent, checkMaterialPresent_redacted, Printing.checkMaterialPresent]
  have hstorage : ∀ k, Printing.checkMaterialStorage sizesOnly k (db.redacted crypto) =
      Printing.checkMaterialStorage crypto k db := fun k => by
    rw [Printing.checkMaterialStorage, checkMaterialStorage_redacted, readMaterialSizes_redacted]
    rfl
  simp only [Printing.runPreflight, htls, hmodule, hsha, hrequest, theCertificate_redacted,
    henvironment, hpresent, hstorage]

/-- The lines that the runner prints, and how it ends, are those of the database without its
keys, its certificates, its tokens and its signs. -/
theorem main_redacted (crypto : Cryptography T) (process : Process T) (db : Database T) :
    Printing.main crypto process db =
      Printing.main sizesOnly process.redacted (db.redacted crypto) := by
  have hnow : process.redacted.now = process.now := rfl
  unfold Printing.main
  rw [resolveMode_redacted]
  cases resolveMode process.environ with
  | none => rfl
  | some mode => simp only [runPreflight_redacted, runTicketStatus_redacted, hnow]

end Runner

end ArcaEdi
