import ArcaEdi.Lib.Script
import ArcaEdi.Homologation

/-!
# The bootstrap of the homologation

`tools/arca_homologation_bootstrap.py`, which prepares a database in one transaction
and commits it with its last statement. What it prints is left out.
-/

namespace ArcaEdi

/-- `raise SystemExit(text)` -/
def systemExit (text : String) : Exn := .library ("SystemExit: " ++ text)

/-- The name of an environment, as its selection has it. -/
def Environment.name : Environment → String
  | .testing => "testing"
  | .production => "production"

namespace Bootstrap

open Homologation PyText

variable {T : Type}

def certificateXmlid : String := "__arca_homologation__.certificate"
def certificateName : String := "ARCA homologación"
def shaParameter : String := "l10n_ar_arca_edi.installed_sha"
def table : String := "l10n_ar_arca_certificate"
def allowBootstrap : String := "ARCA_HOMO_ALLOW_BOOTSTRAP"
def materialFields : List String := ["certificate", "private_key"]

/-- The environment variables. Two of them are read as bytes. -/
structure Environ (T : Type) where
  get : String → Option String
  material : String → Option T

/-- A variable that holds more than the empty text. -/
def Environ.given (environ : Environ T) (name : String) : Option String :=
  (environ.get name).filter (· ≠ "")

/-! ## Decisions -/

def bootstrapAllowed (environ : Environ T) : Bool :=
  ["1", "true", "yes"].contains (lower (strip ((environ.get allowBootstrap).getD "")))

def missingMaterialVariables (crypto : Cryptography T) (environ : Environ T)
    (hasCertificate hasPrivateKey : Bool) : List String :=
  ((if hasPrivateKey then [] else ["ARCA_HOMO_PRIVATE_KEY"]) ++
    (if hasCertificate then [] else ["ARCA_HOMO_CERT"])).filter fun name =>
      !crypto.present (environ.material name)

def isHex (c : Char) : Bool := "0123456789abcdef".toList.contains c

/-- The text that should be a SHA. The marker is what its file says, or what reading it
raises, and it is none where there is no file that the system can read. -/
def shaCandidate (environ : Environ T) (buildMarker : Option (Except Exn String)) : Except Exn String :=
  let given := strip ((environ.get "ARCA_HOMO_CODE_SHA").getD "")
  if given ≠ "" then .ok given
  else match buildMarker with
    | none => .ok ""
    | some text => strip <$> text

def resolveCodeSha (environ : Environ T) (buildMarker : Option (Except Exn String)) :
    Except Exn (Option String) := do
  let candidate ← shaCandidate environ buildMarker
  if candidate.length = 40 ∧ (lower candidate).toList.all isHex then return some (lower candidate)
  else return none

/-- What both scripts say of the columns. Each has its own words for one that is missing. -/
def storageProblems (missing : String → String) (columns : List String) (sizes : String → Option Nat)
    (legacyAttachments : Nat) : List String :=
  let problems := materialFields.filterMap fun field =>
    if !columns.contains field then some (missing field)
    else match sizes field with
      | none => some s!"'{field}' está vacío en su columna"
      | some 0 => some s!"'{field}' tiene la columna con cero bytes"
      | some _ => none
  if legacyAttachments = 0 then problems
  else
    let fields := " y ".intercalate materialFields
    problems ++ [s!"quedan {legacyAttachments} adjunto(s) antiguos para {fields}: el material real "
      ++ "puede estar donde el módulo ya no lo lee"]

def missingColumn (field : String) : String :=
  s!"la tabla {table} no tiene la columna '{field}' (¿el módulo quedó en una versión anterior?)"

/-! ## Steps -/

def checkGate (environ : Environ T) : Except Exn Unit :=
  if bootstrapAllowed environ then return ()
  else throw (systemExit
    (s!"[bootstrap] ABORTA: {allowBootstrap} no está habilitado.\nEste paso escribe material fiscal "
      ++ "en la base; hay que pedirlo explícitamente."))

def checkModuleInstalled (db : Database T) : Except Exn Unit :=
  if db.moduleInstalled then return ()
  else throw (systemExit
    ("[bootstrap] ABORTA: l10n_ar_arca_edi no está instalado en esta base. Instalarlo es provisión "
      ++ "de infraestructura, no tarea de este script."))

def checkMaterialColumns (db : Database T) : Except Exn Unit :=
  let missing := materialFields.filter (!db.materialColumns.contains ·)
  if missing = [] then return ()
  else
    let fields := ", ".intercalate missing
    throw (systemExit
      (s!"[bootstrap] ABORTA: la tabla {table} no tiene la(s) columna(s) {fields}.\nEsta base parece "
        ++ "estar en una versión del módulo anterior a 19.0.3.0.0. Actualizala antes de sembrar "
        ++ "material."))

/-- Odoo searches active companies only. -/
def disableAutoRequest (db : Database T) : Database T :=
  { db with
    companies := db.companies.update (fun _ company => company.active && company.autoRequestCae)
      fun company => { company with autoRequestCae := false } }

def targetCompany (environ : Environ T) (db : Database T) : Except Exn Nat :=
  match environ.given "ARCA_HOMO_COMPANY_ID" with
  | some text =>
    match int? text with
    | none => throw .valueError
    | some id =>
      if 0 < id ∧ id.toNat ∈ db.companies then return id.toNat
      else throw (systemExit s!"[bootstrap] ABORTA: no existe la compañía {text}")
  | none =>
    match (db.companies.search (·.active)).min? with
    | some company => return company
    | none => throw (systemExit "[bootstrap] ABORTA: la base no tiene ninguna compañía")

/-- `create` of a certificate and of its identifier, with the id that the sequence draws. -/
def seed (fresh company : Nat) (holderCuit : String) (db : Database T) : Except Exn (Database T) := do
  Registry.checkHolderCuit holderCuit
  if fresh ∈ db.certificates then throw (.library "UniqueViolation: l10n_ar_arca_certificate_pkey")
  if db.modelData ≠ [] then
    throw (.library "UniqueViolation: ir_model_data_module_name_uniq_index")
  let certificate : StoredCertificate T :=
    { name := certificateName, companyId := company, holderCuit, environment := .testing }
  return { db with
    certificates := db.certificates.insert fresh certificate
    modelData := [⟨certificateModel, fresh⟩] }

/-- `find_or_create_certificate`: the record that the identifier pins, or a new one. -/
def findOrCreateCertificate (fresh company : Nat) (environ : Environ T) (db : Database T) :
    Except Exn (Nat × Database T) := do
  match db.ref with
  | some row =>
    if row.model = certificateModel then return (row.resId, db)
    -- A record of another model has no environment to check.
    else throw (.library s!"AttributeError: '{row.model}' object has no attribute 'environment'")
  | none =>
    let strays := db.certificates.search (·.companyId = company)
    if strays ≠ [] then
      let ids := strays.mergeSort fun a b => decide (b ≤ a)
      throw (systemExit
        (s!"[bootstrap] ABORTA: la compañía {company} ya tiene {strays.length} certificado(s) "
          ++ s!"(ids: {ids}) y ninguno está anclado a {certificateXmlid}.\nNo se reemplaza ni se "
          ++ "agrega uno al lado: resolvelo a mano y volvé a correr el bootstrap."))
    let some holderCuit := environ.given "ARCA_HOMO_CERT_HOLDER_CUIT"
      | throw (systemExit
          ("[bootstrap] ABORTA: falta ARCA_HOMO_CERT_HOLDER_CUIT y todavía no hay certificado "
            ++ "sembrado"))
    return (fresh, ← seed fresh company holderCuit db)

def enforceTesting (k : Nat) (db : Database T) : Except Exn Unit := do
  let certificate ← db.browse k
  if certificate.environment ≠ .testing then
    throw (systemExit
      (s!"[bootstrap] ABORTA: el certificado {k} tiene environment='{certificate.environment.name}'. "
        ++ "Esta base es sólo de homologación y no se corrige automáticamente."))

/-- `link_company`. A company that points elsewhere is not moved. -/
def linkCompany (k company : Nat) (db : Database T) : Except Exn (Database T) := do
  let some row := db.companies.lookup company
    | throw (.library "MissingError: Record does not exist or has been deleted.")
  match row.certificateId with
  | some existing =>
    if existing ≠ k then
      throw (systemExit
        (s!"[bootstrap] ABORTA: la compañía {company} apunta al certificado {existing}, distinto del "
          ++ s!"sembrado ({k}). No se reemplaza: reasignarlo puede dejar huérfano un ticket vigente."))
    return db
  | none =>
    let certificate ← db.browse k
    -- The constraint of the company fires on this write.
    if certificate.companyId ≠ company then
      let owner := ((db.companies.lookup certificate.companyId).map (·.displayName)).getD ""
      throw (.userError
        (s!"Certificate '{certificate.name}' belongs to company '{owner}' and cannot be used by "
          ++ s!"'{row.displayName}'."))
    return { db with companies := db.companies.write company { row with certificateId := some k } }

/-- It reads the expiry of each entry. -/
def reportTicket (k : Nat) (db : Database T) : Except Exn Unit := do
  let certificate ← db.browse k
  if !certificate.tokenCache.truthy then return ()
  let some entries := certificate.tokenCache.fields?
    | throw (.library "AttributeError: no attribute 'items'")
  entries.forM fun (_, entry) =>
    if entry.truthy && entry.fields?.isNone then throw TokenCache.attributeError else return ()

def verifyXmlidIsUnique (k : Nat) (db : Database T) : Except Exn Unit :=
  match db.modelData with
  | [row] =>
    if row ≠ ⟨certificateModel, k⟩ then
      throw (systemExit
        (s!"[bootstrap] ABORTA: {certificateXmlid} apunta a {row.model}#{row.resId}, no al "
          ++ s!"certificado {k}."))
    else return ()
  | rows =>
    throw (systemExit
      (s!"[bootstrap] ABORTA: {certificateXmlid} apunta a {rows.length} registros; tiene que apuntar "
        ++ "a exactamente uno."))

def recordInstalledSha (environ : Environ T) (buildMarker : Option (Except Exn String))
    (db : Database T) : Except Exn (Database T) := do
  let some sha ← resolveCodeSha environ buildMarker
    | throw (systemExit
        ("[bootstrap] ABORTA: no se pudo determinar el SHA del código (ARCA_HOMO_CODE_SHA ausente o "
          ++ "inválido). Sin eso, una sesión posterior no puede comprobar que corre el código "
          ++ "esperado."))
  return { db with installedSha := some sha }

section Material

variable (crypto : Cryptography T)

/-- The certificate with its key, which is written only where there is none. -/
def keyed (environ : Environ T) (certificate : StoredCertificate T) : StoredCertificate T :=
  if crypto.present certificate.privateKey then certificate
  else { certificate with privateKey := environ.material "ARCA_HOMO_PRIVATE_KEY" }

/-- The certificate with its file, which is processed only where there is none. -/
def certified (now : Nat) (environ : Environ T) (certificate : StoredCertificate T) :
    Except Exn (StoredCertificate T) :=
  if crypto.present certificate.certificate then .ok certificate
  else match environ.material "ARCA_HOMO_CERT" with
    | some text => certificate.actionProcessCertificate crypto now text
    | none => .error (.library "KeyError: 'ARCA_HOMO_CERT'")

/-- `load_material`: the key first, then the certificate through its own action. -/
def loadMaterial (now k : Nat) (environ : Environ T) (db : Database T) : Except Exn (Database T) := do
  let certificate ← db.browse k
  let missing := missingMaterialVariables crypto environ (crypto.present certificate.certificate)
    (crypto.present certificate.privateKey)
  if missing ≠ [] then
    let names := ", ".intercalate missing
    throw (systemExit s!"[bootstrap] ABORTA: falta material y no se puede completar: {names}")
  let loaded ← certified crypto now environ (keyed crypto environ certificate)
  return { db with certificates := db.certificates.write k loaded }

def verifyKeyPair (k : Nat) (db : Database T) : Except Exn Unit := do
  let certificate ← db.browse k
  let cert ← certificate.loadCertificate crypto
  let key ← certificate.loadPrivateKey crypto
  if cert.publicNumbers ≠ key.publicNumbers then
    throw (systemExit
      (s!"[bootstrap] ABORTA: el certificado y la clave privada de '{certificate.name}' no son "
        ++ "pareja. Nada se corrige automáticamente."))

/-- `read_material_sizes` -/
def readMaterialSizes (k : Nat) (db : Database T) (field : String) : Option Nat := do
  let certificate ← db.certificates.lookup k
  let text ← if field = "private_key" then certificate.privateKey else certificate.certificate
  return crypto.size text

def verifyStorage (k : Nat) (db : Database T) : Except Exn Unit :=
  let problems := storageProblems missingColumn db.materialColumns (readMaterialSizes crypto k db)
    (db.legacyCount k)
  if problems = [] then return ()
  else
    let lines := "\n  - ".intercalate problems
    throw (systemExit
      s!"[bootstrap] ABORTA: el material fiscal no quedó dentro de la fila:\n  - {lines}")

/-- `main`, at a moment and with the id that a new certificate would get. -/
def main (environ : Environ T) (buildMarker : Option (Except Exn String)) (now fresh : Nat) :
    Script Exn (Database T) Unit := do
  Script.reading fun _ => checkGate environ
  Script.reading checkModuleInstalled
  Script.reading checkMaterialColumns
  Script.writing fun db => return disableAutoRequest db
  let company ← Script.reading (targetCompany environ)
  let certificate ← Script.step (findOrCreateCertificate fresh company environ)
  Script.reading (enforceTesting certificate)
  Script.writing (loadMaterial crypto now certificate environ)
  Script.writing (linkCompany certificate company)
  Script.reading (reportTicket certificate)
  Script.reading (verifyXmlidIsUnique certificate)
  Script.reading (verifyKeyPair crypto certificate)
  Script.reading (verifyStorage crypto certificate)
  Script.writing (recordInstalledSha environ buildMarker)
  Script.commit

end Material

end Bootstrap

end ArcaEdi
