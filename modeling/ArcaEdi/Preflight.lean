import Mathlib.Data.Bool.AllAny
import ArcaEdi.Preparation

/-!
# The preflight of the runner

`tools/arca_homologation_runner.py` states by itself what the bootstrap prepares, over
the whole database, and it leaves the certificate's own rule of use to the certificate.
-/

namespace ArcaEdi

open Homologation PyText

variable {T : Type}

namespace Runner

/-! ## Decisions -/

/-- `(environ.get("ARCA_HOMO_CODE_SHA") or "").strip() or None` -/
def runningSha (environ : Bootstrap.Environ T) : Option String :=
  some (strip ((environ.get "ARCA_HOMO_CODE_SHA").getD "")) |>.filter (· ≠ "")

def isFullSha (value : String) : Bool :=
  value.length == 40 && (lower value).toList.all Bootstrap.isHex

def shaProblem (recorded running : Option String) : Option String :=
  match recorded.filter (· ≠ ""), running with
  | none, _ =>
    some (s!"la base no tiene {Bootstrap.shaParameter}: el bootstrap nunca terminó, así que su estado "
      ++ "es desconocido")
  | some _, none =>
    some "no se pudo determinar el SHA en ejecución (ARCA_HOMO_CODE_SHA ausente o inválido)"
  | some recorded, some running =>
    if !isFullSha recorded then
      some (s!"{Bootstrap.shaParameter} no es un SHA completo de 40 caracteres; volvé a correr el "
        ++ "bootstrap")
    else if !isFullSha running then
      some ("ARCA_HOMO_CODE_SHA no es un SHA completo de 40 caracteres. Un prefijo abreviado no "
        ++ "identifica un commit sin ambigüedad")
    else if lower recorded ≠ lower running then
      some (s!"la base fue preparada para {recorded}, y este proceso corre {running}. Actualizá "
        ++ "explícitamente con un upgrade; una sesión no actualiza nada.")
    else none

def missingColumn (field : String) : String :=
  s!"la tabla {Bootstrap.table} no tiene la columna '{field}'"

/-! ## Checks -/

/-- The row of `pg_stat_ssl`: whether the connection is encrypted. -/
def checkTls (ssl : Option Bool) : Except Exn Unit :=
  if ssl = some true then return ()
  else throw (systemExit
    ("[runner] ABORTA: la conexión a PostgreSQL no está cifrada. Esta base viaja por un proxy TCP "
      ++ "público; sin TLS no se usa."))

def checkModuleInstalled (db : Database T) : Except Exn Unit :=
  if db.moduleInstalled then return ()
  else throw (systemExit
    ("[runner] ABORTA: l10n_ar_arca_edi no está instalado. Una sesión no instala ni actualiza "
      ++ "módulos."))

def checkInstalledSha (environ : Bootstrap.Environ T) (db : Database T) : Except Exn Unit :=
  match shaProblem db.installedSha (runningSha environ) with
  | none => return ()
  | some problem => throw (systemExit s!"[runner] ABORTA: {problem}")

def checkAutoRequestIsOff (db : Database T) : Except Exn Unit :=
  let enabled := db.companies.search fun company => company.active && company.autoRequestCae
  if enabled = [] then return ()
  else throw (systemExit
    (s!"[runner] ABORTA: auto_request_cae está encendido en las compañías {enabled}. Esta base no "
      ++ "puede pedir un CAE por su cuenta."))

/-- `certificates`, and the check of `run_preflight` that there is one. -/
def theCertificate (db : Database T) : Except Exn Nat :=
  match db.certificates.keys with
  | [] =>
    throw (systemExit
      "[runner] ABORTA: la base no tiene ningún certificado. Corré el bootstrap primero.")
  | [k] => return k
  | found =>
    let ids := found.mergeSort fun a b => decide (b ≤ a)
    throw (systemExit
      (s!"[runner] ABORTA: la base tiene {found.length} certificados ({ids}); homologación espera "
        ++ "exactamente uno."))

def checkEnvironment (k : Nat) (db : Database T) : Except Exn Unit := do
  let certificate ← db.browse k
  if certificate.environment ≠ .testing then
    throw (systemExit
      (s!"[runner] ABORTA: el certificado {k} tiene environment='{certificate.environment.name}'. "
        ++ "Esta base es sólo de homologación."))

section Material

variable (crypto : Cryptography T)

def checkMaterialPresent (k : Nat) (db : Database T) : Except Exn Unit := do
  let certificate ← db.browse k
  let missing := Bootstrap.materialFields.filter fun field =>
    !crypto.present (if field = "private_key" then certificate.privateKey else certificate.certificate)
  if missing ≠ [] then
    let names := ", ".intercalate missing
    throw (systemExit s!"[runner] ABORTA: falta material fiscal: {names}")

def checkMaterialStorage (k : Nat) (db : Database T) : Except Exn Unit :=
  let problems := Bootstrap.storageProblems missingColumn db.materialColumns
    (Bootstrap.readMaterialSizes crypto k db) (db.legacyCount k)
  if problems = [] then return ()
  else
    let lines := "\n  - ".intercalate problems
    throw (systemExit
      s!"[runner] ABORTA: el material fiscal no está dentro de PostgreSQL:\n  - {lines}")

def runPreflight (ssl : Option Bool) (environ : Bootstrap.Environ T) (db : Database T) :
    Except Exn Nat := do
  checkTls ssl
  checkModuleInstalled db
  checkInstalledSha environ db
  checkAutoRequestIsOff db
  let certificate ← theCertificate db
  checkEnvironment certificate db
  checkMaterialPresent crypto certificate db
  checkMaterialStorage crypto certificate db
  return certificate

end Material

/-! ## What each check says -/

open Raise

variable {crypto : Cryptography T} {environ : Bootstrap.Environ T} {db : Database T} {k : Nat}

theorem isHex_toLower {c : Char} (h : Bootstrap.isHex c) : c.toLower = c := by
  have hall : ∀ c ∈ "0123456789abcdef".toList, c.toLower = c :=
    List.all_iff_forall_prop.mp (by decide)
  exact hall c (by simpa [Bootstrap.isHex] using h)

theorem lower_hex {text : String} (h : text.toList.all Bootstrap.isHex) : lower text = text := by
  have hsame : text.toList.map Char.toLower = text.toList := by
    conv_rhs => rw [← List.map_id text.toList]
    exact List.map_congr_left fun c hc => isHex_toLower (List.all_eq_true.mp h c hc)
  rw [lower, hsame, String.ofList_toList]

theorem shaProblem_eq_none {running : String} (hlength : (lower running).length = 40)
    (hhex : (lower running).toList.all Bootstrap.isHex) :
    shaProblem (some (lower running)) (some running) = none := by
  have hne : lower running ≠ "" := by
    intro h
    rw [h] at hlength
    cases hlength
  have hsame : lower (lower running) = lower running := lower_hex hhex
  have hrecorded : isFullSha (lower running) := by simp [isFullSha, hlength, hsame, hhex]
  have hrunning : isFullSha running := by
    rw [lower_length] at hlength
    simp [isFullSha, hlength, hhex]
  simp [shaProblem, Option.filter, hne, hrecorded, hrunning, hsame]

theorem checkInstalledSha_eq_ok :
    checkInstalledSha environ db = .ok () ↔ shaProblem db.installedSha (runningSha environ) = none := by
  unfold checkInstalledSha
  cases shaProblem db.installedSha (runningSha environ) <;> simp [pure_eq_ok, throw_ne_ok]

theorem checkAutoRequest_eq_ok : checkAutoRequestIsOff db = .ok () ↔
    ∀ id row, db.companies.lookup id = some row → row.active → row.autoRequestCae = false := by
  simp only [checkAutoRequestIsOff, ite_pure_eq_ok, and_true, Table.search_eq_nil]
  refine forall₃_congr fun id row _ => ?_
  cases row.active <;> simp

theorem theCertificate_eq_ok : theCertificate db = .ok k ↔ db.certificates.keys = [k] := by
  unfold theCertificate
  split
  · next h => simp [h, throw_ne_ok]
  · next j h => simp [h, pure_eq_ok]
  · next h =>
    constructor
    · exact fun hok => absurd hok throw_ne_ok
    · intro hone
      exact absurd hone (h _)

theorem checkEnvironment_eq_ok : checkEnvironment k db = .ok () ↔
    ∃ c, db.certificates.lookup k = some c ∧ c.environment = .testing := by
  simp only [checkEnvironment, bind_eq_ok, Bootstrap.browse_eq_ok, ne_eq, ite_throw_eq_ok, pure_eq_ok,
    and_true, not_not]

theorem checkMaterialPresent_eq_ok : checkMaterialPresent crypto k db = .ok () ↔
    ∃ c, db.certificates.lookup k = some c ∧
      crypto.present c.certificate ∧ crypto.present c.privateKey := by
  simp only [checkMaterialPresent, bind_eq_ok, Bootstrap.browse_eq_ok]
  refine exists_congr fun c => and_congr_right fun _ => ?_
  cases hcert : crypto.present c.certificate <;> cases hkey : crypto.present c.privateKey <;>
    simp [Bootstrap.materialFields, hcert, hkey, throw_ne_ok, pure_eq_ok]

/-- What the runner asks for beside what the connection is. -/
structure Passes (crypto : Cryptography T) (environ : Bootstrap.Environ T) (db : Database T) (k : Nat) :
    Prop where
  installed : db.moduleInstalled = true
  sha : shaProblem db.installedSha (runningSha environ) = none
  off : ∀ id row, db.companies.lookup id = some row → row.active → row.autoRequestCae = false
  alone : db.certificates.keys = [k]
  certificate : ∃ c, db.certificates.lookup k = some c ∧ c.environment = .testing ∧
    crypto.present c.certificate ∧ crypto.present c.privateKey
  storage : Bootstrap.storageProblems missingColumn db.materialColumns
    (Bootstrap.readMaterialSizes crypto k db) (db.legacyCount k) = []

theorem runPreflight_eq_ok :
    runPreflight crypto (some true) environ db = .ok k ↔ Passes crypto environ db k := by
  simp only [runPreflight, bind_eq_ok, pure_eq_ok]
  constructor
  · rintro ⟨_, -, ⟨⟩, hinstalled, ⟨⟩, hsha, ⟨⟩, hoff, j, halone, ⟨⟩, htesting, ⟨⟩, hpresent, ⟨⟩,
      hstorage, rfl⟩
    obtain ⟨c, hc, htesting⟩ := checkEnvironment_eq_ok.mp htesting
    obtain ⟨c', hc', hpresent⟩ := checkMaterialPresent_eq_ok.mp hpresent
    obtain rfl := Option.some.inj (hc.symm.trans hc')
    exact ⟨(ite_pure_eq_ok.mp hinstalled).1, checkInstalledSha_eq_ok.mp hsha,
      checkAutoRequest_eq_ok.mp hoff, theCertificate_eq_ok.mp halone, ⟨c, hc, htesting, hpresent⟩,
      (ite_pure_eq_ok.mp hstorage).1⟩
  · rintro ⟨hinstalled, hsha, hoff, halone, ⟨c, hc, htesting, hpresent⟩, hstorage⟩
    exact ⟨(), rfl, (), ite_pure_eq_ok.mpr ⟨hinstalled, rfl⟩, (), checkInstalledSha_eq_ok.mpr hsha, (),
      checkAutoRequest_eq_ok.mpr hoff, k, theCertificate_eq_ok.mpr halone, (),
      checkEnvironment_eq_ok.mpr ⟨c, hc, htesting⟩, (),
      checkMaterialPresent_eq_ok.mpr ⟨c, hc, hpresent⟩, (), ite_pure_eq_ok.mpr ⟨hstorage, rfl⟩, rfl⟩

end Runner

/-! ## The runner after the bootstrap -/

namespace Bootstrap

open Raise

variable {crypto : Cryptography T} {environ : Environ T} {buildMarker : Option (Except Exn String)}
  {db db' found loaded linked : Database T} {now fresh company k : Nat}

/-- The pinned certificate, where its own certificate is stored. -/
def seeded (crypto : Cryptography T) (db : Database T) : Option (StoredCertificate T) :=
  (db.ref.bind fun row =>
    if row.model = certificateModel then db.certificates.lookup row.resId else none).filter
      fun c => crypto.present c.certificate

/-- No certificate stands beside the pinned one, and that one is active and lasts until
a later moment. Where it is still to be loaded, the file lasts until then. -/
structure Fit (crypto : Cryptography T) (environ : Environ T) (later : Nat) (db : Database T) :
    Prop where
  alone : ∀ k ∈ db.certificates, db.ref = some ⟨certificateModel, k⟩
  usable : match seeded crypto db with
    | some c => c.state = .active ∧ ∀ last, c.certDateEnd = some last → later ≤ last
    | none => ∀ text cert, environ.material "ARCA_HOMO_CERT" = some text →
        crypto.certificate text = some cert → later ≤ cert.notAfter

namespace Prepares

variable (h : Prepares crypto environ buildMarker now fresh db db' company k found loaded linked)

include h

theorem seeded : ∃ c c', db'.certificates.lookup k = some c' ∧ Loaded crypto environ c c' ∧
    seeded crypto db = if crypto.present c.certificate then some c else none := by
  obtain ⟨c, c', hc, hloads, hcertificates⟩ := h.loading
  refine ⟨c, c', by rw [hcertificates, Table.lookup_write_self hc], hloads, ?_⟩
  obtain ⟨href, hfound⟩ | ⟨⟨hnone, -⟩, holderCuit, hfound⟩ := h.found_cases
  · rw [hfound] at hc
    simp [Bootstrap.seeded, href, hc, Option.filter]
  · -- A new row has no certificate, and nothing was pinned before it.
    rw [hfound, AList.lookup_insert] at hc
    obtain rfl := Option.some.inj hc
    simp [Bootstrap.seeded, hnone, Cryptography.present]

theorem alone :
    db'.certificates.keys = [k] ↔ ∀ j ∈ db.certificates, db.ref = some ⟨certificateModel, j⟩ := by
  obtain ⟨c, c', hc, -, hcertificates⟩ := h.loading
  rw [hcertificates, Table.keys_write, Table.keys_eq_singleton,
    and_iff_right (Table.mem_iff_lookup.mpr ⟨c, hc⟩)]
  obtain ⟨href, hfound⟩ | ⟨⟨hnone, hfresh⟩, holderCuit, hfound⟩ := h.found_cases
  · simp only [hfound, href, Option.some.injEq, ModelData.mk.injEq, true_and, eq_comm (a := k)]
  · simp only [hfound, hnone, AList.mem_insert, reduceCtorEq, imp_false]
    constructor
    · rintro hall j hj
      exact hfresh (hall j (.inr hj) ▸ hj)
    · rintro hnobody j (rfl | hj)
      · rfl
      · exact absurd hj (hnobody j)

theorem passes {environ' : Environ T} {running : String}
    (hrunning : Runner.runningSha environ' = some running)
    (hsha : resolveCodeSha environ buildMarker = .ok (some (lower running))) :
    Runner.Passes crypto environ' db' k ↔ db'.certificates.keys = [k] := by
  refine ⟨fun hpasses => hpasses.alone, fun halone => ?_⟩
  obtain ⟨c, key, cert, hc, htesting, hkey, hcert, -⟩ := h.row
  obtain ⟨sha, hresolved, hrecorded⟩ := h.installedSha
  obtain rfl : lower running = sha := by simpa [hsha] using hresolved
  obtain ⟨hlength, hhex⟩ := resolveCodeSha_full hsha
  constructor
  · rw [h.frame]
    exact (ite_pure_eq_ok.mp h.installed).1
  · rw [hrecorded, hrunning]
    exact Runner.shaProblem_eq_none hlength hhex
  · exact fun _ _ hid hactive => h.off hid hactive
  · exact halone
  · exact ⟨c, hc, htesting, StoredCertificate.present_file hcert,
      StoredCertificate.present_privateKey hkey⟩
  · obtain ⟨_, -, rfl⟩ := recordSha_eq_ok.mp h.sha
    exact storageProblems_eq_nil.mpr (storageProblems_eq_nil.mp (verifyStorage_eq_ok.mp h.storage))

theorem usable {later : Nat} :
    (∃ c, db'.certificates.lookup k = some c ∧ c.checkUsable crypto later = .ok ()) ↔
      match Bootstrap.seeded crypto db with
      | some c => c.state = .active ∧ ∀ last, c.certDateEnd = some last → later ≤ last
      | none => ∀ text cert, environ.material "ARCA_HOMO_CERT" = some text →
          crypto.certificate text = some cert → later ≤ cert.notAfter := by
  obtain ⟨old, c, hc, hloads, hseeded⟩ := h.seeded
  obtain ⟨c', key, cert, hc', -, hkey, hcert, -⟩ := h.row
  obtain rfl := Option.some.inj (hc.symm.trans hc')
  simp only [hc, Option.some.injEq, exists_eq_left', StoredCertificate.checkUsable_eq_ok,
    StoredCertificate.present_privateKey hkey, StoredCertificate.present_file hcert, and_true, hseeded]
  cases hold : crypto.present old.certificate with
  | true =>
    obtain ⟨-, -, hstate, hend⟩ := hloads.kept hold
    simp [hstate, hend]
  | false =>
    obtain ⟨text, loadedCert, htext, hloaded, -, hstate, hend⟩ := hloads.installed hold
    simp only [Bool.false_eq_true, ↓reduceIte]
    constructor
    · rintro ⟨-, hlast⟩ text' cert' htext' hloaded'
      obtain rfl := Option.some.inj (htext.symm.trans htext')
      obtain rfl := Option.some.inj (hloaded.symm.trans hloaded')
      exact hlast _ hend
    · intro hall
      refine ⟨hstate, fun last hlast => ?_⟩
      obtain rfl := Option.some.inj (hend.symm.trans hlast)
      exact hall text loadedCert htext hloaded

end Prepares

/-- After a bootstrap that committed, the runner accepts the database and its certificate can
be used, exactly if the database was fit for it. -/
theorem preflight_agrees (crypto : Cryptography T) (environ environ' : Environ T)
    (buildMarker : Option (Except Exn String)) (now fresh later : Nat) (db : Database T)
    (running : String)
    (hcommitted : (bootstrap crypto environ buildMarker now fresh db).1 = .ok ())
    (hrunning : Runner.runningSha environ' = some running)
    (hsha : resolveCodeSha environ buildMarker = .ok (some (lower running))) :
    (∃ k c, Runner.runPreflight crypto (some true) environ'
        (bootstrap crypto environ buildMarker now fresh db).2 = .ok k ∧
      (bootstrap crypto environ buildMarker now fresh db).2.certificates.lookup k = some c ∧
      c.checkUsable crypto later = .ok ()) ↔ Fit crypto environ later db := by
  obtain ⟨e, haborted⟩ | ⟨db', hleft, company, k, found, loaded, linked, h⟩ :=
    bootstrap_cases crypto environ buildMarker now fresh db
  · rw [haborted] at hcommitted
    cases hcommitted
  rw [hleft]
  simp only [Runner.runPreflight_eq_ok]
  constructor
  · rintro ⟨j, c, hpasses, hc, husable⟩
    have hk : k ∈ db'.certificates.keys := by
      obtain ⟨row, _, _, hrow, -⟩ := h.row
      exact AList.mem_keys.mp (Table.mem_iff_lookup.mpr ⟨row, hrow⟩)
    obtain rfl : k = j := by simpa [hpasses.alone] using hk
    exact ⟨h.alone.mp hpasses.alone, h.usable.mp ⟨c, hc, husable⟩⟩
  · intro hfit
    obtain ⟨c, hc, husable⟩ := h.usable.mpr hfit.usable
    exact ⟨k, c, (h.passes hrunning hsha).mpr (h.alone.mpr hfit.alone), hc, husable⟩

theorem preflight_agrees_first_run :
    ∃ k c, Runner.runPreflight sampleTexts (some true) sampleEnviron
        (bootstrap sampleTexts sampleEnviron none 500 7 (sampleDatabase ∅)).2 = .ok k ∧
      (bootstrap sampleTexts sampleEnviron none 500 7 (sampleDatabase ∅)).2.certificates.lookup k =
        some c ∧
      c.checkUsable sampleTexts 600 = .ok () := by
  refine (preflight_agrees sampleTexts sampleEnviron sampleEnviron none 500 7 600 (sampleDatabase ∅)
    sampleSha rfl rfl rfl).mpr ⟨nofun, fun text cert htext hcert => ?_⟩
  obtain rfl := Option.some.inj htext
  obtain rfl := Option.some.inj hcert
  decide

/-- A certificate that was revoked: its key is gone, and its file is not. -/
def revoked : StoredCertificate (PrivateKey ⊕ X509) where
  name := certificateName
  companyId := 1
  holderCuit := "20-12345678-6"
  environment := .testing
  state := .revoked
  certificate := some (.inr sampleCertificate)
  certDateStart := some 100
  certDateEnd := some 900

theorem preflight_disagrees :
    (bootstrap sampleTexts sampleEnviron none 500 7 (sampleDatabase (AList.singleton 1 revoked))).1 =
      .ok () ∧
    Runner.runningSha sampleEnviron = some sampleSha ∧
    resolveCodeSha sampleEnviron none = .ok (some (lower sampleSha)) ∧
    ¬ ∃ k c, Runner.runPreflight sampleTexts (some true) sampleEnviron
        (bootstrap sampleTexts sampleEnviron none 500 7 (sampleDatabase (AList.singleton 1 revoked))).2 =
          .ok k ∧
      (bootstrap sampleTexts sampleEnviron none 500 7
        (sampleDatabase (AList.singleton 1 revoked))).2.certificates.lookup k = some c ∧
      c.checkUsable sampleTexts 600 = .ok () := by
  refine ⟨rfl, rfl, rfl, ?_⟩
  rintro ⟨k, c, hpreflight, hc, husable⟩
  have halone : [1] = [k] := (Runner.runPreflight_eq_ok.mp hpreflight).alone
  obtain rfl : 1 = k := by simpa using halone
  obtain rfl : { revoked with privateKey := some (.inl sampleKey) } = c := Option.some.inj hc
  cases husable

end Bootstrap

end ArcaEdi
