import ArcaEdi.Bootstrap

/-!
# What the bootstrap leaves behind

One lemma for each step of the bootstrap, then its runs: what a run that commits has
prepared, what it has kept, and that a second one changes nothing.
-/

namespace ArcaEdi.Bootstrap

open Homologation Raise

variable {T : Type}

/-! ## What each step does -/

variable {crypto : Cryptography T} {environ : Environ T} {buildMarker : Option (Except Exn String)}
  {db db' : Database T} {now fresh company k : Nat}

theorem browse_eq_ok {c : StoredCertificate T} :
    db.browse k = .ok c ↔ db.certificates.lookup k = some c := by
  unfold Database.browse
  split <;> simp_all

theorem ref_eq_some : db.ref = some ⟨certificateModel, k⟩ ↔
    db.modelData.head? = some ⟨certificateModel, k⟩ ∧ ∃ c, db.certificates.lookup k = some c := by
  simp [Database.ref, Option.filter_eq_some_iff, Option.isSome_iff_exists]

theorem lookup_disabled {id : Nat} : (disableAutoRequest db).companies.lookup id =
    (db.companies.lookup id).map fun company =>
      { company with autoRequestCae := !company.active && company.autoRequestCae } := by
  unfold disableAutoRequest
  rw [Table.lookup_update]
  refine congrArg (Option.map · _) (funext fun company => ?_)
  obtain ⟨row, active, autoRequestCae⟩ := company
  cases active <;> cases autoRequestCae <;> rfl

theorem disable_eq_self (h : ∀ id company, db.companies.lookup id = some company →
    company.active → company.autoRequestCae = false) : disableAutoRequest db = db := by
  unfold disableAutoRequest
  rw [Table.update_eq_self]
  intro id company hid hon
  rw [Bool.and_eq_true] at hon
  rw [h id company hid hon.1] at hon
  cases hon.2

theorem targetCompany_congr (hkeys : db.companies.keys = db'.companies.keys)
    (hactive : db.companies.search (·.active) = db'.companies.search (·.active)) :
    targetCompany environ db = targetCompany environ db' := by
  simp only [targetCompany, AList.mem_keys, hkeys, hactive]

theorem findOrCreate_eq_ok (h : findOrCreateCertificate fresh company environ db = .ok (k, db')) :
    (db.ref = some ⟨certificateModel, k⟩ ∧ db' = db) ∨
      ((db.ref = none ∧ k ∉ db.certificates) ∧ ∃ holderCuit, db' =
        { db with
          certificates := db.certificates.insert k
            { name := certificateName, companyId := company, holderCuit, environment := .testing }
          modelData := [⟨certificateModel, k⟩] }) := by
  unfold findOrCreateCertificate at h
  split at h
  · next row href =>
    split at h
    · next hmodel =>
      obtain ⟨rfl, rfl⟩ := Prod.mk.inj (pure_eq_ok.mp h)
      exact .inl ⟨by rw [href, ← hmodel], rfl⟩
    · exact absurd h throw_ne_ok
  · next href =>
    obtain ⟨-, h⟩ := check_eq_ok.mp h
    split at h
    · next holderCuit _ =>
      simp only [seed, bind_eq_ok, check_eq_ok, pure_eq_ok, Prod.mk.injEq] at h
      obtain ⟨_, ⟨_, -, hfresh, -, rfl⟩, rfl, rfl⟩ := h
      exact .inr ⟨⟨href, hfresh⟩, holderCuit, rfl⟩
    · exact absurd h throw_ne_ok

theorem enforceTesting_eq_ok : enforceTesting k db = .ok () ↔
    ∃ c, db.certificates.lookup k = some c ∧ c.environment = .testing := by
  simp only [enforceTesting, bind_eq_ok, browse_eq_ok, ne_eq, ite_throw_eq_ok, pure_eq_ok, and_true, not_not]

/-- What loading the material does to the row. -/
structure Loaded (crypto : Cryptography T) (environ : Environ T) (c c' : StoredCertificate T) : Prop where
  environment : c'.environment = c.environment
  privateKey : crypto.present c.privateKey → c'.privateKey = c.privateKey
  kept : crypto.present c.certificate → c'.certificate = c.certificate ∧ c'.tokenCache = c.tokenCache ∧
    c'.state = c.state ∧ c'.certDateEnd = c.certDateEnd
  installed : crypto.present c.certificate = false → ∃ text cert,
    environ.material "ARCA_HOMO_CERT" = some text ∧ crypto.certificate text = some cert ∧
    c'.tokenCache = .null ∧ c'.state = .active ∧ c'.certDateEnd = some cert.notAfter

theorem loadMaterial_eq_ok (h : loadMaterial crypto now k environ db = .ok db') :
    ∃ c c', db.certificates.lookup k = some c ∧ Loaded crypto environ c c' ∧
      db' = { db with certificates := db.certificates.write k c' } := by
  unfold loadMaterial at h
  obtain ⟨c, hc, h⟩ := bind_eq_ok.mp h
  obtain ⟨-, h⟩ := check_eq_ok.mp h
  obtain ⟨c', hloaded, h⟩ := bind_eq_ok.mp h
  refine ⟨c, c', browse_eq_ok.mp hc, ?_, (pure_eq_ok.mp h).symm⟩
  -- The key is written first, and it is the row with that key that processes the file.
  have hkey : crypto.present c.privateKey → keyed crypto environ c = c := fun hpresent => if_pos hpresent
  have hrest : keyed crypto environ c = { c with privateKey := (keyed crypto environ c).privateKey } := by
    unfold keyed
    split <;> rfl
  generalize keyed crypto environ c = withKey at hloaded hkey hrest
  unfold certified at hloaded
  split at hloaded
  · next hpresent =>
    obtain rfl := Except.ok.inj hloaded
    rw [hrest] at hpresent
    refine ⟨by rw [hrest], fun hk => by rw [hkey hk], fun _ => by rw [hrest]; simp, fun habsent => ?_⟩
    exact absurd hpresent (by simp [habsent])
  · next habsent =>
    rw [hrest] at habsent
    split at hloaded
    · next text htext =>
      obtain ⟨cert, hcert, -, rfl⟩ := StoredCertificate.process_eq_ok.mp hloaded
      refine ⟨by rw [hrest]; rfl, fun hk => by rw [hkey hk]; rfl,
        fun hpresent => absurd hpresent habsent, fun _ => ⟨text, cert, htext, hcert, rfl, rfl, rfl⟩⟩
    · cases hloaded

theorem loadMaterial_of_present {c : StoredCertificate T} (hc : db.certificates.lookup k = some c)
    (hkey : crypto.present c.privateKey) (hcert : crypto.present c.certificate) :
    loadMaterial crypto now k environ db = .ok db := by
  simp [loadMaterial, browse_eq_ok.mpr hc, missingMaterialVariables, keyed, certified, hkey, hcert, bind,
    Except.bind, pure, Except.pure, Table.write_self hc]

theorem linkCompany_eq_ok : linkCompany k company db = .ok db' ↔
    ∃ row, db.companies.lookup company = some row ∧ (row.certificateId = some k ∧ db' = db ∨
      row.certificateId = none ∧ (∃ c, db.certificates.lookup k = some c ∧ c.companyId = company) ∧
        db' = { db with
          companies := db.companies.write company { row with certificateId := some k } }) := by
  unfold linkCompany
  cases hrow : db.companies.lookup company with
  | none => simp [throw_ne_ok]
  | some row =>
    simp only [Option.some.injEq, exists_eq_left']
    cases hid : row.certificateId with
    | none =>
      simp only [bind_eq_ok, browse_eq_ok, check_eq_ok, pure_eq_ok, @eq_comm _ db']
      simp [← and_assoc]
    | some existing =>
      simp only [check_eq_ok, pure_eq_ok, @eq_comm _ db']
      simp

theorem verifyXmlid_eq_ok :
    verifyXmlidIsUnique k db = .ok () ↔ db.modelData = [⟨certificateModel, k⟩] := by
  unfold verifyXmlidIsUnique
  split
  · next row hrow =>
    simp only [ne_eq, ite_throw_eq_ok, pure_eq_ok, and_true, not_not, hrow, List.cons.injEq]
  · next hrows =>
    constructor
    · exact fun h => absurd h throw_ne_ok
    · exact fun h => absurd h (hrows _)

theorem verifyKeyPair_eq_ok : verifyKeyPair crypto k db = .ok () ↔
    ∃ c key cert, db.certificates.lookup k = some c ∧ (c.record crypto).privateKey = some key ∧
      (c.record crypto).certificate = some (.pem cert) ∧ cert.publicNumbers = key.publicNumbers := by
  simp only [verifyKeyPair, bind_eq_ok, ite_throw_eq_ok, pure_eq_ok, browse_eq_ok,
    StoredCertificate.loadCertificate_eq_ok, StoredCertificate.loadPrivateKey_eq_ok]
  constructor
  · rintro ⟨c, hc, cert, hcert, key, hkey, hpair, -⟩
    exact ⟨c, key, cert, hc, hkey, hcert, not_not.mp hpair⟩
  · rintro ⟨c, key, cert, hc, hkey, hcert, hpair⟩
    exact ⟨c, hc, cert, hcert, key, hkey, not_not.mpr hpair, trivial⟩

theorem storageProblems_eq_nil {missing : String → String} {columns : List String}
    {sizes : String → Option Nat} {legacyAttachments : Nat} :
    storageProblems missing columns sizes legacyAttachments = [] ↔ legacyAttachments = 0 ∧
      ∀ field ∈ materialFields, field ∈ columns ∧ ∃ size, sizes field = some size ∧ size ≠ 0 := by
  unfold storageProblems
  by_cases hlegacy : legacyAttachments = 0
  · rw [if_pos hlegacy, List.filterMap_eq_nil_iff]
    simp only [hlegacy, true_and]
    refine forall₂_congr fun field _ => ?_
    by_cases hcolumn : field ∈ columns
    · rcases sizes field with _ | _ | size <;> simp [hcolumn]
    · simp [hcolumn]
  · simp [hlegacy]

theorem verifyStorage_eq_ok : verifyStorage crypto k db = .ok () ↔
    storageProblems missingColumn db.materialColumns (readMaterialSizes crypto k db) (db.legacyCount k) =
      [] := by
  simp only [verifyStorage, ite_pure_eq_ok, and_true]

theorem resolveCodeSha_full {sha : String} (h : resolveCodeSha environ buildMarker = .ok (some sha)) :
    sha.length = 40 ∧ sha.toList.all isHex := by
  obtain ⟨candidate, -, h⟩ := bind_eq_ok.mp h
  split at h
  · next hfull =>
    obtain rfl := Option.some.inj (pure_eq_ok.mp h)
    exact ⟨PyText.lower_length.trans hfull.1, hfull.2⟩
  · cases h

theorem recordSha_eq_ok : recordInstalledSha environ buildMarker db = .ok db' ↔
    ∃ sha, resolveCodeSha environ buildMarker = .ok (some sha) ∧
      db' = { db with installedSha := some sha } := by
  unfold recordInstalledSha
  cases resolveCodeSha environ buildMarker with
  | error e => simp [bind, Except.bind]
  | ok found =>
    cases found with
    | none => simp [bind, Except.bind, throw_ne_ok]
    | some sha => simp [bind, Except.bind, pure_eq_ok, @eq_comm _ db']

/-! ## A run that commits -/

/-- The databases that a run goes through, each checked as `main` checks it. -/
structure Prepares (crypto : Cryptography T) (environ : Environ T)
    (buildMarker : Option (Except Exn String)) (now fresh : Nat) (db db' : Database T)
    (company k : Nat) (found loaded linked : Database T) : Prop where
  allowed : checkGate environ = .ok ()
  installed : checkModuleInstalled db = .ok ()
  columns : checkMaterialColumns db = .ok ()
  target : targetCompany environ (disableAutoRequest db) = .ok company
  pinned : findOrCreateCertificate fresh company environ (disableAutoRequest db) = .ok (k, found)
  testing : enforceTesting k found = .ok ()
  material : loadMaterial crypto now k environ found = .ok loaded
  link : linkCompany k company loaded = .ok linked
  ticket : reportTicket k linked = .ok ()
  unique : verifyXmlidIsUnique k linked = .ok ()
  pair : verifyKeyPair crypto k linked = .ok ()
  storage : verifyStorage crypto k linked = .ok ()
  sha : recordInstalledSha environ buildMarker linked = .ok db'

theorem main_eq_ok {s s' : Session (Database T)} :
    main crypto environ buildMarker now fresh s = .ok () s' ↔ s' = ⟨s'.work, s'.work⟩ ∧
      ∃ company k found loaded linked, Prepares crypto environ buildMarker now fresh s.work s'.work
        company k found loaded linked := by
  simp only [main, Script.bind_reading_eq_ok, Script.bind_writing_eq_ok, Script.bind_step_eq_ok,
    Script.commit_eq_ok, pure_eq_ok]
  constructor
  · rintro ⟨_, hallowed, _, hinstalled, _, hcolumns, _, rfl, company, htarget, k, found, hpinned,
      _, htesting, loaded, hmaterial, linked, hlink, _, hticket, _, hunique, _, hpair, _, hstorage,
      db', hsha, rfl⟩
    exact ⟨rfl, company, k, found, loaded, linked, hallowed, hinstalled, hcolumns, htarget, hpinned,
      htesting, hmaterial, hlink, hticket, hunique, hpair, hstorage, hsha⟩
  · rintro ⟨hs', company, k, found, loaded, linked, h⟩
    exact ⟨(), h.allowed, (), h.installed, (), h.columns, _, rfl, company, h.target, k, found,
      h.pinned, (), h.testing, loaded, h.material, linked, h.link, (), h.ticket, (), h.unique, (),
      h.pair, (), h.storage, _, h.sha, hs'⟩

theorem main_atomic : Script.Atomic (main crypto environ buildMarker now fresh) := by
  unfold main
  refine (Script.uncommitted_reading _).bind fun _ => ?_
  refine (Script.uncommitted_reading _).bind fun _ => ?_
  refine (Script.uncommitted_reading _).bind fun _ => ?_
  refine (Script.uncommitted_writing _).bind fun _ => ?_
  refine (Script.uncommitted_reading _).bind fun company => ?_
  refine (Script.uncommitted_step _).bind fun certificate => ?_
  refine (Script.uncommitted_reading _).bind fun _ => ?_
  refine (Script.uncommitted_writing _).bind fun _ => ?_
  refine (Script.uncommitted_writing _).bind fun _ => ?_
  refine (Script.uncommitted_reading _).bind fun _ => ?_
  refine (Script.uncommitted_reading _).bind fun _ => ?_
  refine (Script.uncommitted_reading _).bind fun _ => ?_
  refine (Script.uncommitted_reading _).bind fun _ => ?_
  exact (Script.uncommitted_writing _).bind fun _ => Script.atomic_commit

/-- A run of the script by itself: what it answers, and the database that it leaves. -/
def bootstrap (crypto : Cryptography T) (environ : Environ T)
    (buildMarker : Option (Except Exn String)) (now fresh : Nat) (db : Database T) :
    Except Exn Unit × Database T :=
  Script.outcome (main crypto environ buildMarker now fresh) db

/-- A run either aborts, and leaves the database as it was, or commits all of its work. -/
theorem bootstrap_cases (crypto : Cryptography T) (environ : Environ T)
    (buildMarker : Option (Except Exn String)) (now fresh : Nat) (db : Database T) :
    (∃ e, bootstrap crypto environ buildMarker now fresh db = (.error e, db)) ∨
      ∃ db', bootstrap crypto environ buildMarker now fresh db = (.ok (), db') ∧
        ∃ company k found loaded linked, Prepares crypto environ buildMarker now fresh db db'
          company k found loaded linked := by
  obtain hraised | ⟨_, s, hmain, hreturned⟩ := main_atomic.outcome db
  · exact .inl hraised
  · exact .inr ⟨s.work, hreturned, (main_eq_ok.mp hmain).2⟩

/-! ## What a run keeps -/

theorem findOrCreate_frame {found : Database T}
    (h : findOrCreateCertificate fresh company environ db = .ok (k, found)) :
    found = { db with certificates := found.certificates, modelData := found.modelData } ∧
      ∀ j c, db.certificates.lookup j = some c → found.certificates.lookup j = some c ∧
        (j = k → db.ref = some ⟨certificateModel, k⟩) := by
  obtain ⟨href, rfl⟩ | ⟨⟨-, hfresh⟩, holderCuit, rfl⟩ := findOrCreate_eq_ok h
  · exact ⟨rfl, fun j c hj => ⟨hj, fun _ => href⟩⟩
  · refine ⟨rfl, fun j c hj => ?_⟩
    have hne : j ≠ k := by
      rintro rfl
      exact hfresh (Table.mem_iff_lookup.mpr ⟨c, hj⟩)
    exact ⟨(AList.lookup_insert_ne hne).trans hj, fun heq => absurd heq hne⟩

/-- What the bootstrap looks at and turns off. -/
def flags (company : StoredCompany) : Bool × Bool := (company.active, company.autoRequestCae)

theorem linkCompany_frame {linked : Database T} (h : linkCompany k company db = .ok linked) :
    linked = { db with companies := linked.companies } ∧ linked.companies.keys = db.companies.keys ∧
      linked.companies.search (·.active) = db.companies.search (·.active) ∧
      (∃ row, linked.companies.lookup company = some row ∧ row.certificateId = some k) ∧
      ∀ id, (linked.companies.lookup id).map flags = (db.companies.lookup id).map flags := by
  obtain ⟨row, hrow, ⟨hid, rfl⟩ | ⟨-, -, rfl⟩⟩ := linkCompany_eq_ok.mp h
  · exact ⟨rfl, rfl, rfl, ⟨row, hrow, hid⟩, fun _ => rfl⟩
  · refine ⟨rfl, Table.keys_write, Table.search_write hrow rfl,
      ⟨_, Table.lookup_write_self hrow, rfl⟩, fun id => ?_⟩
    by_cases hid : id = company
    · subst hid
      rw [Table.lookup_write_self hrow, hrow]
      rfl
    · rw [Table.lookup_write_ne hid]

namespace Prepares

variable {found loaded linked : Database T}
  (h : Prepares crypto environ buildMarker now fresh db db' company k found loaded linked)

include h

theorem bootstrap : bootstrap crypto environ buildMarker now fresh db = (.ok (), db') := by
  have hmain : main crypto environ buildMarker now fresh ⟨db, db⟩ = .ok () ⟨db', db'⟩ :=
    main_eq_ok.mpr ⟨rfl, company, k, found, loaded, linked, h⟩
  simp only [Bootstrap.bootstrap, Script.outcome, hmain]

theorem frame : db' = { db with
    companies := linked.companies
    certificates := loaded.certificates
    modelData := found.modelData
    installedSha := db'.installedSha } := by
  obtain ⟨sha, -, rfl⟩ := recordSha_eq_ok.mp h.sha
  obtain ⟨c, c', -, -, hloaded⟩ := loadMaterial_eq_ok h.material
  rw [(linkCompany_frame h.link).1]
  simp only
  rw [hloaded]
  simp only
  rw [(findOrCreate_frame h.pinned).1]
  simp only [disableAutoRequest]

theorem companies_eq : db'.companies = linked.companies := by rw [h.frame]

theorem loaded_companies : loaded.companies = (disableAutoRequest db).companies := by
  obtain ⟨c, c', -, -, hloaded⟩ := loadMaterial_eq_ok h.material
  rw [hloaded, (findOrCreate_frame h.pinned).1]

theorem loading : ∃ c c', found.certificates.lookup k = some c ∧ Loaded crypto environ c c' ∧
    db'.certificates = found.certificates.write k c' := by
  obtain ⟨c, c', hc, hloads, hloaded⟩ := loadMaterial_eq_ok h.material
  exact ⟨c, c', hc, hloads, by rw [h.frame, hloaded]⟩

theorem company_eq :
    targetCompany environ db = .ok company ∧ targetCompany environ db' = .ok company := by
  obtain ⟨-, hkeys, hactive, -⟩ := linkCompany_frame h.link
  have hdisabledKeys : (disableAutoRequest db).companies.keys = db.companies.keys := Table.keys_update
  have hdisabledActive : (disableAutoRequest db).companies.search (·.active) =
      db.companies.search (·.active) := Table.search_update fun _ _ _ _ => rfl
  constructor
  · rw [← h.target]
    exact targetCompany_congr hdisabledKeys.symm hdisabledActive.symm
  · rw [← h.target]
    refine targetCompany_congr ?_ ?_
    · rw [h.companies_eq, hkeys, h.loaded_companies]
    · rw [h.companies_eq, hactive, h.loaded_companies]

theorem companies (id : Nat) : (db'.companies.lookup id).map flags =
    (db.companies.lookup id).map fun old => (old.active, !old.active && old.autoRequestCae) := by
  obtain ⟨-, -, -, -, hrows⟩ := linkCompany_frame h.link
  rw [h.companies_eq, hrows, h.loaded_companies, lookup_disabled, Option.map_map]
  rfl

theorem company_row {id : Nat} {row' : StoredCompany} (hid : db'.companies.lookup id = some row') :
    ∃ row, db.companies.lookup id = some row ∧ row'.active = row.active ∧
      row'.autoRequestCae = (!row.active && row.autoRequestCae) := by
  have hflags := h.companies id
  rw [hid] at hflags
  obtain ⟨row, hrow, hsame⟩ := Option.map_eq_some_iff.mp hflags.symm
  obtain ⟨hactive, hauto⟩ := Prod.mk.inj hsame
  exact ⟨row, hrow, hactive.symm, hauto.symm⟩

theorem off {id : Nat} {row : StoredCompany} (hid : db'.companies.lookup id = some row)
    (hactive : row.active) : row.autoRequestCae = false := by
  obtain ⟨old, -, hsame, hauto⟩ := h.company_row hid
  rw [hauto, ← hsame, hactive]
  rfl

theorem certificates {j : Nat} {c : StoredCertificate T} (hj : db.certificates.lookup j = some c) :
    ∃ c', db'.certificates.lookup j = some c' ∧
      (j ≠ k ∧ c' = c ∨ j = k ∧ db.ref = some ⟨certificateModel, k⟩ ∧ Loaded crypto environ c c') := by
  obtain ⟨old, new, hold, hloads, hcertificates⟩ := h.loading
  obtain ⟨-, hfound⟩ := findOrCreate_frame h.pinned
  obtain ⟨hjfound, href⟩ := hfound j c hj
  rw [hcertificates]
  by_cases hjk : j = k
  · subst hjk
    obtain rfl := Option.some.inj (hold.symm.trans hjfound)
    exact ⟨new, Table.lookup_write_self hold, .inr ⟨rfl, href rfl, hloads⟩⟩
  · exact ⟨c, (Table.lookup_write_ne hjk).trans hjfound, .inl ⟨hjk, rfl⟩⟩

theorem row : ∃ c key cert, db'.certificates.lookup k = some c ∧ c.environment = .testing ∧
    (c.record crypto).privateKey = some key ∧ (c.record crypto).certificate = some (.pem cert) ∧
    cert.publicNumbers = key.publicNumbers := by
  obtain ⟨old, new, hold, hloads, hcertificates⟩ := h.loading
  obtain ⟨sha, -, rfl⟩ := recordSha_eq_ok.mp h.sha
  obtain ⟨c, key, cert, hc, hkey, hcert, hpair⟩ := verifyKeyPair_eq_ok.mp h.pair
  refine ⟨c, key, cert, hc, ?_, hkey, hcert, hpair⟩
  obtain ⟨old', hold', htesting⟩ := enforceTesting_eq_ok.mp h.testing
  obtain rfl := Option.some.inj (hold.symm.trans hold')
  have hnew : linked.certificates.lookup k = some new :=
    (congrArg (·.lookup k) hcertificates).trans (Table.lookup_write_self hold)
  obtain rfl := Option.some.inj (hc.symm.trans hnew)
  exact hloads.environment.trans htesting

theorem found_cases : (db.ref = some ⟨certificateModel, k⟩ ∧ found.certificates = db.certificates) ∨
    ((db.ref = none ∧ k ∉ db.certificates) ∧ ∃ holderCuit, found.certificates =
      db.certificates.insert k
        { name := certificateName, companyId := company, holderCuit, environment := .testing }) := by
  obtain ⟨href, rfl⟩ | ⟨hnew, holderCuit, rfl⟩ := findOrCreate_eq_ok h.pinned
  · exact .inl ⟨href, rfl⟩
  · exact .inr ⟨hnew, holderCuit, rfl⟩

theorem ref_eq {j : Nat} (href : db.ref = some ⟨certificateModel, j⟩) : j = k := by
  obtain ⟨hpinned, -⟩ | ⟨⟨hnone, -⟩, -⟩ := h.found_cases
  · rw [href] at hpinned
    exact (ModelData.mk.inj (Option.some.inj hpinned)).2
  · rw [href] at hnone
    cases hnone

theorem modelData : db'.modelData = [⟨certificateModel, k⟩] := by
  obtain ⟨sha, -, rfl⟩ := recordSha_eq_ok.mp h.sha
  exact verifyXmlid_eq_ok.mp h.unique

theorem linked_row : ∃ row, db'.companies.lookup company = some row ∧ row.certificateId = some k := by
  rw [h.companies_eq]
  exact (linkCompany_frame h.link).2.2.2.1

theorem installedSha :
    ∃ sha, resolveCodeSha environ buildMarker = .ok (some sha) ∧ db'.installedSha = some sha := by
  obtain ⟨sha, hsha, rfl⟩ := recordSha_eq_ok.mp h.sha
  exact ⟨sha, hsha, rfl⟩

theorem again (later next : Nat) :
    Prepares crypto environ buildMarker later next db' db' company k db' db' db' := by
  obtain ⟨c, key, cert, hc, htesting, hkey, hcert, hpair⟩ := h.row
  have hframe := h.frame
  have hoff : disableAutoRequest db' = db' := disable_eq_self fun _ _ hid hactive => h.off hid hactive
  have href : db'.ref = some ⟨certificateModel, k⟩ := ref_eq_some.mpr ⟨by rw [h.modelData]; rfl, c, hc⟩
  obtain ⟨row, hrow, hid⟩ := h.linked_row
  obtain ⟨sha, hsha, hdb'⟩ := recordSha_eq_ok.mp h.sha
  constructor
  · exact h.allowed
  · rw [hframe]
    exact h.installed
  · rw [hframe]
    exact h.columns
  · rw [hoff]
    exact h.company_eq.2
  · rw [hoff]
    simp [findOrCreateCertificate, href, pure, Except.pure]
  · exact enforceTesting_eq_ok.mpr ⟨c, hc, htesting⟩
  · exact loadMaterial_of_present hc (StoredCertificate.present_privateKey hkey)
      (StoredCertificate.present_file hcert)
  · exact linkCompany_eq_ok.mpr ⟨row, hrow, .inl ⟨hid, rfl⟩⟩
  · rw [hdb']
    exact h.ticket
  · exact verifyXmlid_eq_ok.mpr h.modelData
  · exact verifyKeyPair_eq_ok.mpr ⟨c, key, cert, hc, hkey, hcert, hpair⟩
  · rw [hdb']
    exact h.storage
  · exact recordSha_eq_ok.mpr ⟨sha, hsha, by rw [hdb']⟩

end Prepares

/-! ## What a run promises -/

/-- What a run leaves: one certificate for testing, its own key pair, linked and recorded. -/
structure Ready (crypto : Cryptography T) (db : Database T) (company k : Nat) (sha : String) : Prop where
  pinned : db.modelData = [⟨certificateModel, k⟩]
  pair : ∃ c key cert, db.certificates.lookup k = some c ∧ c.environment = .testing ∧
    (c.record crypto).privateKey = some key ∧ (c.record crypto).certificate = some (.pem cert) ∧
    cert.publicNumbers = key.publicNumbers
  linked : ∃ row, db.companies.lookup company = some row ∧ row.certificateId = some k
  off : ∀ id row, db.companies.lookup id = some row → row.autoRequestCae = false
  sha : db.installedSha = some sha

/-- What was there before is there still. -/
structure Preserved (crypto : Cryptography T) (db db' : Database T) : Prop where
  certificates : ∀ j c, db.certificates.lookup j = some c → ∃ c', db'.certificates.lookup j = some c' ∧
    (crypto.present c.privateKey → c'.privateKey = c.privateKey) ∧
    (crypto.present c.certificate → c'.certificate = c.certificate) ∧
    ∀ service ticket, c.tickets.lookup service = some ticket → c'.tickets.lookup service = some ticket
  attempts : db'.attempts = db.attempts

/-- What the bootstrap promises of a run that commits. -/
structure Promised (crypto : Cryptography T) (environ : Environ T)
    (buildMarker : Option (Except Exn String)) (db db' : Database T) : Prop where
  ready : ∃ company k sha, targetCompany environ db = .ok company ∧
    resolveCodeSha environ buildMarker = .ok (some sha) ∧ Ready crypto db' company k sha
  preserved : Preserved crypto db db'
  again : ∀ now fresh, (bootstrap crypto environ buildMarker now fresh db').2 = db'

/-- No ticket stands beside a certificate that is still to be loaded, and no archived
company asks for a CAE by itself. -/
structure Spared (crypto : Cryptography T) (db : Database T) : Prop where
  tickets : ∀ k c, db.ref = some ⟨certificateModel, k⟩ → db.certificates.lookup k = some c →
    crypto.present c.certificate = false → ∀ service, c.tickets.lookup service = none
  archived : ∀ id row, db.companies.lookup id = some row → row.active = false →
    row.autoRequestCae = false

theorem Prepares.preserved {found loaded linked : Database T} (h : Prepares crypto environ buildMarker
    now fresh db db' company k found loaded linked) : Preserved crypto db db' ↔
      ∀ j c, db.ref = some ⟨certificateModel, j⟩ → db.certificates.lookup j = some c →
        crypto.present c.certificate = false → ∀ service, c.tickets.lookup service = none := by
  constructor
  · intro hkept j c href hc habsent service
    obtain ⟨c', hc', -, -, htickets⟩ := hkept.certificates j c hc
    obtain ⟨c'', hc'', ⟨hne, -⟩ | ⟨-, -, hloads⟩⟩ := h.certificates hc
    · exact absurd (h.ref_eq href) hne
    · obtain rfl := Option.some.inj (hc'.symm.trans hc'')
      obtain ⟨_, _, -, -, hwiped, -⟩ := hloads.installed habsent
      -- The file was processed, and that wiped the cache.
      have hnone : c'.tickets.lookup service = none := by
        simp [StoredCertificate.tickets, hwiped, Json.fields?]
      cases hticket : c.tickets.lookup service with
      | none => rfl
      | some ticket => rw [htickets service ticket hticket] at hnone; cases hnone
  · intro hspared
    refine ⟨fun j c hc => ?_, by rw [h.frame]⟩
    obtain ⟨c', hc', ⟨-, rfl⟩ | ⟨rfl, href, hloads⟩⟩ := h.certificates hc
    · exact ⟨c', hc', fun _ => rfl, fun _ => rfl, fun _ _ hticket => hticket⟩
    · refine ⟨c', hc', hloads.privateKey, fun hpresent => (hloads.kept hpresent).1,
        fun service ticket hticket => ?_⟩
      cases hcert : crypto.present c.certificate with
      | true =>
        rw [StoredCertificate.tickets, (hloads.kept hcert).2.1]
        exact hticket
      | false =>
        rw [hspared j c href hc hcert service] at hticket
        cases hticket

/-- A run that aborts changes nothing. One that commits keeps the promise exactly if it had
no ticket to lose and no archived company to miss. -/
theorem database_bootstrapped (crypto : Cryptography T) (environ : Environ T)
    (buildMarker : Option (Except Exn String)) (now fresh : Nat) (db : Database T) :
    (∃ e, bootstrap crypto environ buildMarker now fresh db = (.error e, db)) ∨
      ∃ db', bootstrap crypto environ buildMarker now fresh db = (.ok (), db') ∧
        (Promised crypto environ buildMarker db db' ↔ Spared crypto db) := by
  obtain haborted | ⟨db', hcommitted, company, k, found, loaded, linked, h⟩ :=
    bootstrap_cases crypto environ buildMarker now fresh db
  · exact .inl haborted
  refine .inr ⟨db', hcommitted, fun hpromised => ⟨h.preserved.mp hpromised.preserved, ?_⟩,
    fun hspared => ?_⟩
  · intro id row hid harchived
    obtain ⟨_, _, _, -, -, hready⟩ := hpromised.ready
    have hflags := h.companies id
    rw [hid] at hflags
    obtain ⟨row', hid', hsame⟩ := Option.map_eq_some_iff.mp hflags
    have hauto : row'.autoRequestCae = (!row.active && row.autoRequestCae) := congrArg Prod.snd hsame
    rw [hready.off id row' hid', harchived] at hauto
    exact hauto.symm
  · obtain ⟨sha, hsha, hrecorded⟩ := h.installedSha
    refine ⟨⟨company, k, sha, h.company_eq.1, hsha, h.modelData, h.row, h.linked_row, ?_, hrecorded⟩,
      h.preserved.mpr hspared.tickets,
      fun later next => congrArg Prod.snd (h.again later next).bootstrap⟩
    intro id row' hid'
    obtain ⟨row, hid, -, hauto⟩ := h.company_row hid'
    rw [hauto]
    cases hactive : row.active with
    | true => rfl
    | false => exact hspared.archived id row hid hactive

/-! ## A ticket that is lost -/

/-- Texts that stand for what cryptography reads in them. -/
def sampleTexts : Cryptography (PrivateKey ⊕ X509) where
  size _ := 2000
  privateKey := Sum.getLeft?
  certificate := Sum.getRight?

def sampleKey : PrivateKey := ⟨3233⟩
def sampleCertificate : X509 := ⟨3233, some "CUIT 20123456786", 100, 900⟩

def sampleSha : String := "0123456789abcdef0123456789abcdef01234567"

def sampleEnviron : Environ (PrivateKey ⊕ X509) where
  get name := [(allowBootstrap, "1"), ("ARCA_HOMO_CERT_HOLDER_CUIT", "20-12345678-6"),
    ("ARCA_HOMO_CODE_SHA", sampleSha)].lookup name
  material name := [("ARCA_HOMO_PRIVATE_KEY", Sum.inl sampleKey),
    ("ARCA_HOMO_CERT", Sum.inr sampleCertificate)].lookup name

/-- One company, with the certificates that are given. The first of them is pinned. -/
def sampleDatabase (certificates : Table Nat (StoredCertificate (PrivateKey ⊕ X509))) :
    Database (PrivateKey ⊕ X509) where
  moduleInstalled := true
  materialColumns := materialFields
  companies := AList.singleton 1 ⟨⟨"Uno", some "20-12345678-6", none⟩, true, false⟩
  certificates := certificates
  modelData := certificates.keys.head?.toList.map fun k => ⟨certificateModel, k⟩
  otherRecords := []
  legacyAttachments := []
  installedSha := none
  attempts := []

/-- A certificate in use, with a live ticket, whose file was cleared. -/
def keyAndTicket : StoredCertificate (PrivateKey ⊕ X509) where
  name := certificateName
  companyId := 1
  holderCuit := "20-12345678-6"
  environment := .testing
  state := .active
  privateKey := some (.inl sampleKey)
  certDateStart := some 100
  certDateEnd := some 900
  tokenCache := .obj [("wsfe", .obj [("token", .str "t"), ("sign", .str "s"),
    ("expiration", .str "1970-01-01 12:00:00")])]

theorem cached_ticket_lost :
    (bootstrap sampleTexts sampleEnviron none 500 7 (sampleDatabase (AList.singleton 1 keyAndTicket))).1 =
      .ok () ∧
    ¬ Promised sampleTexts sampleEnviron none (sampleDatabase (AList.singleton 1 keyAndTicket))
      (bootstrap sampleTexts sampleEnviron none 500 7
        (sampleDatabase (AList.singleton 1 keyAndTicket))).2 := by
  refine ⟨rfl, fun hpromised => ?_⟩
  obtain ⟨c', hc', -, -, htickets⟩ := hpromised.preserved.certificates 1 keyAndTicket rfl
  have hticket := htickets "wsfe" _ rfl
  obtain rfl : keyAndTicket.installed (.inr sampleCertificate) sampleCertificate = c' :=
    Option.some.inj hc'
  cases hticket

end ArcaEdi.Bootstrap
