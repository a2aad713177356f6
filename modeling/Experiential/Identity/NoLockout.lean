import Experiential.Lib.Pool
import Experiential.Identity.Directory

/-! # The requirement never locks out

The routes on an organization's domains and on its provider, call by call: a route's reads, and
the statements of the function it calls, are steps of their own, and under READ COMMITTED each
sees what was committed before it. The requirement stands on the domain rows and the provider in
another table, so that every operation checks one table and writes the other. A deletion of a
domain checks nothing.

`requirement_never_locks_out`: a domain that requires SSO has an enabled provider and an enabled
provider has a verified domain, in every state of every run in which no write falls between the
check and the write of an operation that relies on what it takes away, and no deletion takes the
last verified domain while the provider is enabled. The invariant says of every operation behind
its check that what it found there still holds (`SsoPhase.Checked`); each write is a lemma about
the three facts that the two properties relate. `members_locked_out` has the two ways out of the
condition: a deletion on its own, and two operations that overlap. -/

namespace Experiential.Identity

/-- One `org_domains` row. -/
structure OrgDomain where
  orgId : String
  domain : String
  verificationToken : Option String
  verifiedAt : Option Int
  ssoRequired : Bool
deriving DecidableEq

inductive ProviderType where
  | saml
  | oidc
deriving DecidableEq

/-- One `sso_providers` row; its secret is in the vault. -/
structure SsoProvider where
  id : String
  orgId : String
  providerType : ProviderType
  metadata : String
  vaultSecretId : Option String
  defaultRole : OrgRole
  enabled : Bool
deriving DecidableEq

structure SsoTables where
  domains : List OrgDomain
  providers : List SsoProvider
deriving DecidableEq

/-- The body of the `PUT`; the metadata is validated. -/
structure SsoProviderUpsert where
  providerType : ProviderType
  metadata : String
  defaultRole : OrgRole
  enabled : Bool
  clientSecret : Option String
deriving DecidableEq

structure SsoProviderView where
  providerType : ProviderType
  metadata : String
  defaultRole : OrgRole
  enabled : Bool
  hasClientSecret : Bool
deriving DecidableEq

/-- A request; a domain is normalized. -/
inductive SsoRequest where
  | createOrgDomain (domain token : String)
  | verifyOrgDomain (domain : String)
  | setOrgDomainSsoRequired (domain : String) (ssoRequired : Bool)
  | deleteOrgDomain (domain : String)
  | putSsoProvider (body : SsoProviderUpsert)
  | deleteSsoProvider
deriving DecidableEq

inductive SsoAnswer where
  | domain (row : OrgDomain)
  | provider (view : SsoProviderView)
  | deleted
  | error (status : Nat) (detail : String) (code : Option String)
deriving DecidableEq

/-- The next call of a request, with what the calls before it returned. -/
inductive SsoPhase where
  | createLookup (domain token : String)
  | createInsert (domain token : String)
  | verifyLookup (domain : String)
  | verifyClaims (row : OrgDomain)
  | verifyTxt (row : OrgDomain)
  | verifyUpdate (row : OrgDomain)
  | requireLookup (domain : String) (ssoRequired : Bool)
  | requireProvider (row : OrgDomain)
  | requireUpdate (row : OrgDomain) (ssoRequired : Bool)
  | deleteLookup (domain : String)
  | deleteRow (row : OrgDomain)
  /-- The route's own check, and then the function's check, read and write. -/
  | putCheck (body : SsoProviderUpsert)
  | upsertCheck (body : SsoProviderUpsert)
  | upsertRead (body : SsoProviderUpsert)
  | upsertWrite (body : SsoProviderUpsert) (existing : Option (String × Option String))
  /-- The route's two reads, and then the function's check, read and delete. -/
  | dropCheck
  | dropExisting
  | rpcDropCheck
  | rpcDropRead
  | rpcDropRow (id : String)
  | answered (answer : SsoAnswer)
deriving DecidableEq

/-- What a call gets from outside the tables: the TXT values, the time, the ids of a new row and
of a new secret. -/
structure SsoSurroundings where
  txtValues : List String
  now : Int
  newId : String
  newSecretId : String
deriving DecidableEq

inductive SsoOutcome where
  | succeeds (x : SsoSurroundings)
  | fails (error : String)
deriving DecidableEq

section reads
variable (db : SsoTables) (orgId : String)

def OrgDomain.verified (d : OrgDomain) : Bool := d.verifiedAt.isSome

/-- `_find_domain_row`. -/
def findDomainRow (domain : String) : Option OrgDomain :=
  db.domains.find? fun d => decide (d.orgId = orgId) && decide (d.domain = domain)

/-- `_org_requires_sso`, and the check inside the two functions. -/
def orgRequiresSso : Bool :=
  db.domains.any fun d => decide (d.orgId = orgId) && d.ssoRequired && d.verified

/-- `_org_has_verified_domain`, and the check inside `upsert_sso_provider`. -/
def orgHasVerifiedDomain : Bool :=
  db.domains.any fun d => decide (d.orgId = orgId) && d.verified

def enabledProvider : Option SsoProvider :=
  db.providers.find? fun p => decide (p.orgId = orgId) && p.enabled

def ssoProviderOf : Option SsoProvider :=
  db.providers.find? fun p => decide (p.orgId = orgId)

end reads

section writes
variable (db : SsoTables) (orgId : String)

/-- An `update` of the organization's row of the domain. -/
def SsoTables.updateDomain (domain : String) (f : OrgDomain → OrgDomain) : SsoTables :=
  { db with domains := db.domains.map fun d => if d.orgId = orgId ∧ d.domain = domain then f d else d }

def SsoTables.deleteDomain (domain : String) : SsoTables :=
  { db with
    domains := db.domains.filter fun d => !(decide (d.orgId = orgId) && decide (d.domain = domain)) }

/-- The secret a row has after an update: a new one takes the old one's place in the vault, SAML
retires it, and OIDC without a new one keeps it. -/
def keptSecret (body : SsoProviderUpsert) (existingVault : Option String) (newSecretId : String) :
    Option String :=
  match body.clientSecret, body.providerType with
  | some _, _ => some (existingVault.getD newSecretId)
  | none, .saml => none
  | none, .oidc => existingVault

def SsoProvider.updated (p : SsoProvider) (body : SsoProviderUpsert) (vaultSecretId : Option String) :
    SsoProvider :=
  { p with
    providerType := body.providerType
    metadata := body.metadata
    vaultSecretId := vaultSecretId
    defaultRole := body.defaultRole
    enabled := body.enabled }

def SsoTables.updateProvider (id : String) (f : SsoProvider → SsoProvider) : SsoTables :=
  { db with providers := db.providers.map fun p => if p.id = id then f p else p }

def SsoTables.deleteProvider (id : String) : SsoTables :=
  { db with providers := db.providers.filter fun p => !decide (p.id = id) }

def SsoProvider.view (p : SsoProvider) : SsoProviderView :=
  ⟨p.providerType, p.metadata, p.defaultRole, p.enabled, p.vaultSecretId.isSome⟩

end writes

namespace SsoPhase

def refused (status : Nat) (detail : String) (code : Option String) : SsoPhase :=
  .answered (.error status detail code)

/-- An exception of the database or of the connection. -/
def failed : SsoPhase := refused 500 "" none

/-- The first call of a request. -/
def begin : SsoRequest → SsoPhase
  | .createOrgDomain domain token => .createLookup domain token
  | .verifyOrgDomain domain => .verifyLookup domain
  | .setOrgDomainSsoRequired domain ssoRequired => .requireLookup domain ssoRequired
  | .deleteOrgDomain domain => .deleteLookup domain
  | .putSsoProvider body =>
      if body.providerType = .saml ∧ body.clientSecret.isSome then
        refused 400 "A SAML provider carries no client secret; secrets are OIDC-only." none
      else .putCheck body
  | .deleteSsoProvider => .dropCheck

/-- The name of the record that proves a domain. -/
def txtRecordName (domain : String) : String := s!"_explabs-verify.{domain}"

variable (orgId : String)

/-- A call on the domains succeeds. -/
def domainCall (x : SsoSurroundings) (db : SsoTables) : SsoPhase → SsoTables × SsoPhase
  | .createLookup domain token =>
      match db.domains.find? fun d => decide (d.domain = domain) with
      | some taken =>
          (db, refused 409 (if taken.orgId = orgId then s!"Domain already claimed by this organization: {domain}"
            else s!"Domain already claimed: {domain}") none)
      | none => (db, .createInsert domain token)
  | .createInsert domain token =>
      if domain ∈ db.domains.map (·.domain) then (db, failed)
      else
        let row : OrgDomain := ⟨orgId, domain, some token, none, false⟩
        ({ db with domains := db.domains ++ [row] }, .answered (.domain row))
  | .verifyLookup domain =>
      match findDomainRow db orgId domain with
      | none => (db, refused 404 s!"Domain not found: {domain}" none)
      | some row => (db, if row.verified then .answered (.domain row) else .verifyClaims row)
  | .verifyClaims row =>
      if db.domains.any fun d =>
          decide (d.domain = row.domain) && d.verified && !decide (d.orgId = orgId) then
        (db, refused 409 s!"Domain {row.domain} is already verified by another organization." none)
      else (db, .verifyTxt row)
  | .verifyTxt row =>
      if row.verificationToken.getD "None" ∈ x.txtValues then (db, .verifyUpdate row)
      else (db, refused 409
        s!"No matching TXT record found at {txtRecordName row.domain}. Publish a TXT record with the claim's verification token as its value, allow DNS propagation, then verify again."
        (some "txt_record_not_found"))
  | .verifyUpdate row =>
      (db.updateDomain orgId row.domain fun d => { d with verifiedAt := some x.now },
        .answered (.domain { row with verifiedAt := some x.now }))
  | .requireLookup domain ssoRequired =>
      match findDomainRow db orgId domain with
      | none => (db, refused 404 s!"Domain not found: {domain}" none)
      | some row =>
          if row.verified = false then
            (db, refused 409 s!"Domain {domain} is not verified; verify it before requiring SSO." none)
          else (db, if ssoRequired then .requireProvider row else .requireUpdate row false)
  | .requireProvider row =>
      match enabledProvider db orgId with
      | none => (db, refused 409
          "Requiring SSO needs an enabled SSO provider first — otherwise no session could ever satisfy the requirement."
          (some "sso_provider_required"))
      | some _ => (db, .requireUpdate row true)
  | .requireUpdate row ssoRequired =>
      -- the constraint: only a verified row requires SSO
      if ssoRequired ∧ db.domains.any fun d =>
          decide (d.orgId = orgId) && decide (d.domain = row.domain) && !d.verified then (db, failed)
      else
        (db.updateDomain orgId row.domain fun d => { d with ssoRequired := ssoRequired },
          .answered (.domain { row with ssoRequired := ssoRequired }))
  | .deleteLookup domain =>
      match findDomainRow db orgId domain with
      | none => (db, refused 404 s!"Domain not found: {domain}" none)
      | some row => (db, .deleteRow row)
  | .deleteRow row => (db.deleteDomain orgId row.domain, .answered .deleted)
  | phase => (db, phase)

/-- A call on the provider succeeds. -/
def providerCall (x : SsoSurroundings) (db : SsoTables) : SsoPhase → SsoTables × SsoPhase
  | .putCheck body =>
      if body.enabled && !orgHasVerifiedDomain db orgId then
        (db, refused 409 "Enabling SSO requires at least one verified domain."
          (some "verified_domain_required"))
      else if !body.enabled && orgRequiresSso db orgId then
        (db, refused 409
          "A domain in this organization requires SSO; turn sso_required off before disabling the provider."
          (some "sso_required_active"))
      else (db, .upsertCheck body)
  | .upsertCheck body =>
      if body.clientSecret.any fun secret => decide (secret.length < 12) then (db, failed)
      else if body.enabled && !orgHasVerifiedDomain db orgId then (db, failed)
      else if !body.enabled && orgRequiresSso db orgId then (db, failed)
      else (db, .upsertRead body)
  | .upsertRead body =>
      (db, .upsertWrite body ((ssoProviderOf db orgId).map fun p => (p.id, p.vaultSecretId)))
  | .upsertWrite body none =>
      if orgId ∈ db.providers.map (·.orgId) ∨ x.newId ∈ db.providers.map (·.id) then (db, failed)
      else
        let row : SsoProvider := ⟨x.newId, orgId, body.providerType, body.metadata,
          body.clientSecret.map fun _ => x.newSecretId, body.defaultRole, body.enabled⟩
        ({ db with providers := db.providers ++ [row] }, .answered (.provider row.view))
  | .upsertWrite body (some (id, existingVault)) =>
      match db.providers.find? fun p => decide (p.id = id) with
      | none => (db, refused 500 "SSO provider write returned no row." none)
      | some p =>
          let row := p.updated body (keptSecret body existingVault x.newSecretId)
          (db.updateProvider id fun p => p.updated body (keptSecret body existingVault x.newSecretId),
            .answered (.provider row.view))
  | .dropCheck =>
      if orgRequiresSso db orgId then
        (db, refused 409
          "A domain in this organization requires SSO; turn sso_required off before deleting the provider."
          (some "sso_required_active"))
      else (db, .dropExisting)
  | .dropExisting =>
      match ssoProviderOf db orgId with
      | none => (db, refused 404 "No SSO provider is configured for this organization." none)
      | some _ => (db, .rpcDropCheck)
  | .rpcDropCheck => if orgRequiresSso db orgId then (db, failed) else (db, .rpcDropRead)
  | .rpcDropRead =>
      match ssoProviderOf db orgId with
      | none => (db, .answered .deleted)
      | some p => (db, .rpcDropRow p.id)
  | .rpcDropRow id => (db.deleteProvider id, .answered .deleted)
  | phase => (db, phase)

/-- The next call succeeds: one of the domains', or one of the provider's. -/
def succeed (x : SsoSurroundings) (db : SsoTables) (phase : SsoPhase) : SsoTables × SsoPhase :=
  match phase with
  | .putCheck _ | .upsertCheck _ | .upsertRead _ | .upsertWrite _ _ | .dropCheck | .dropExisting
  | .rpcDropCheck | .rpcDropRead | .rpcDropRow _ => providerCall orgId x db phase
  | _ => domainCall orgId x db phase

/-- The next call fails, and writes nothing. -/
def fail (error : String) : SsoPhase → SsoPhase
  | .verifyTxt row => refused 502
      s!"DNS lookup for {txtRecordName row.domain} failed ({error}); try again shortly." none
  | .answered answer => .answered answer
  | _ => failed

def advance (i : SsoOutcome) (db : SsoTables) (phase : SsoPhase) : SsoTables × SsoPhase :=
  match i with
  | .succeeds x => succeed orgId x db phase
  | .fails error => (db, fail error phase)

/-- It has found an enabled provider, and is about to require SSO. -/
def foundEnabled : SsoPhase → Bool
  | .requireUpdate _ ssoRequired => ssoRequired
  | _ => false

/-- It has found a verified domain, and is about to enable the provider. -/
def foundVerified : SsoPhase → Bool
  | .upsertRead body | .upsertWrite body _ => body.enabled
  | _ => false

/-- It has found that no domain requires SSO, and is about to disable or to delete the provider. -/
def foundUnrequired : SsoPhase → Bool
  | .upsertRead body | .upsertWrite body _ => !body.enabled
  | .rpcDropRead | .rpcDropRow _ => true
  | _ => false

/-- The write of the first takes away what the second found at its check. -/
def overtakes : SsoPhase → SsoPhase → Bool
  | .requireUpdate _ ssoRequired, y => ssoRequired && y.foundUnrequired
  | .upsertWrite body _, y => !body.enabled && y.foundEnabled
  | .rpcDropRow _, y => y.foundEnabled
  | _, _ => false

/-- A deletion leaves a verified domain if the provider is enabled or about to be. -/
def LeavesVerified (db : SsoTables) (others : List SsoPhase) : SsoPhase → Prop
  | .deleteRow row =>
      ((enabledProvider db orgId).isSome ∨ ∃ y ∈ others, y.foundVerified) →
        orgHasVerifiedDomain (db.deleteDomain orgId row.domain) orgId
  | _ => True

instance (db : SsoTables) (others : List SsoPhase) (phase : SsoPhase) :
    Decidable (LeavesVerified orgId db others phase) := by
  unfold LeavesVerified
  split <;> infer_instance

def done : SsoPhase → Bool
  | .answered _ => true
  | _ => false

end SsoPhase

abbrev SsoStep := PoolStep SsoRequest SsoOutcome Empty

/-- A request of the organization starts, or makes its next call. -/
def ssoStep (orgId : String) : Pool SsoTables SsoPhase → SsoStep → Pool SsoTables SsoPhase :=
  poolStep SsoPhase.begin (SsoPhase.advance orgId) fun e _ => nomatch e

def ssoStart (db : SsoTables) : Pool SsoTables SsoPhase := ⟨db, []⟩

/-- No operation is in progress. -/
def Quiescent (w : Pool SsoTables SsoPhase) : Prop := ∀ x ∈ w.procs, x.done

instance (w : Pool SsoTables SsoPhase) : Decidable (Quiescent w) := by
  unfold Quiescent
  infer_instance

/-- No write comes between the check and the write of an operation that it invalidates, and no
deletion takes the last verified domain that the provider needs. -/
def Undisturbed (orgId : String) (w : Pool SsoTables SsoPhase) : SsoStep → Prop
  | .advance k (.succeeds _) => ∀ x ∈ w.procs[k]?,
      (∀ y ∈ w.procs, x.overtakes y = false) ∧ x.LeavesVerified orgId w.shared w.procs
  | _ => True

instance (orgId : String) (w : Pool SsoTables SsoPhase) (step : SsoStep) :
    Decidable (Undisturbed orgId w step) := by
  unfold Undisturbed
  split <;> infer_instance

/-- A domain that requires SSO has an enabled provider, and an enabled provider has a verified
domain. -/
structure NoLockout (orgId : String) (db : SsoTables) : Prop where
  provider : orgRequiresSso db orgId → (enabledProvider db orgId).isSome
  domain : (enabledProvider db orgId).isSome → orgHasVerifiedDomain db orgId

variable {orgId : String} {db db' : SsoTables}

/-! ### The three facts -/

theorem enabledProvider_isSome_iff :
    (enabledProvider db orgId).isSome ↔ ∃ p ∈ db.providers, p.orgId = orgId ∧ p.enabled := by
  unfold enabledProvider
  rw [List.find?_isSome]
  simp

theorem orgHasVerifiedDomain_iff :
    orgHasVerifiedDomain db orgId ↔ ∃ d ∈ db.domains, d.orgId = orgId ∧ d.verified := by
  unfold orgHasVerifiedDomain
  simp

theorem orgRequiresSso_iff :
    orgRequiresSso db orgId ↔ ∃ d ∈ db.domains, (d.orgId = orgId ∧ d.ssoRequired) ∧ d.verified := by
  unfold orgRequiresSso
  simp

theorem enabledProvider_of_providers (h : db'.providers = db.providers) :
    enabledProvider db' orgId = enabledProvider db orgId := by
  unfold enabledProvider
  rw [h]

theorem orgHasVerifiedDomain_of_domains (h : db'.domains = db.domains) :
    orgHasVerifiedDomain db' orgId = orgHasVerifiedDomain db orgId := by
  unfold orgHasVerifiedDomain
  rw [h]

theorem orgRequiresSso_of_domains (h : db'.domains = db.domains) :
    orgRequiresSso db' orgId = orgRequiresSso db orgId := by
  unfold orgRequiresSso
  rw [h]

/-- The provider is as it was; the requirement is no stronger and verified domains are left. -/
theorem NoLockout.domains (h : NoLockout orgId db) (hproviders : db'.providers = db.providers)
    (hrequired : orgRequiresSso db' orgId → orgRequiresSso db orgId ∨ (enabledProvider db orgId).isSome)
    (hverified : (enabledProvider db orgId).isSome → orgHasVerifiedDomain db' orgId) :
    NoLockout orgId db' := by
  have henabled : enabledProvider db' orgId = enabledProvider db orgId := enabledProvider_of_providers hproviders
  constructor
  · intro hreq
    rw [henabled]
    rcases hrequired hreq with hold | hnow
    · exact h.provider hold
    · exact hnow
  · intro hsome
    rw [henabled] at hsome
    exact hverified hsome

theorem NoLockout.providers (h : NoLockout orgId db) (hdomains : db'.domains = db.domains)
    (hkept : orgRequiresSso db orgId → (enabledProvider db orgId).isSome → (enabledProvider db' orgId).isSome)
    (hnew : (enabledProvider db' orgId).isSome → (enabledProvider db orgId).isSome ∨
      orgHasVerifiedDomain db orgId) : NoLockout orgId db' := by
  have hverified : orgHasVerifiedDomain db' orgId = orgHasVerifiedDomain db orgId := orgHasVerifiedDomain_of_domains hdomains
  have hrequires : orgRequiresSso db' orgId = orgRequiresSso db orgId := orgRequiresSso_of_domains hdomains
  constructor
  · intro hreq
    rw [hrequires] at hreq
    exact hkept hreq (h.provider hreq)
  · intro hsome
    rw [hverified]
    rcases hnew hsome with hold | hnow
    · exact h.domain hold
    · exact hnow

/-! ### The constraint -/

/-- `org_domains_sso_requires_verified`. -/
def RequiredVerified (db : SsoTables) : Prop := ∀ d ∈ db.domains, d.ssoRequired → d.verified

instance (db : SsoTables) : Decidable (RequiredVerified db) := by
  unfold RequiredVerified
  infer_instance

/-! ### Writes to the domains -/

variable {domain : String}

theorem mem_updateDomain {f : OrgDomain → OrgDomain} {d : OrgDomain}
    (hd : d ∈ (db.updateDomain orgId domain f).domains) :
    d ∈ db.domains ∨ ∃ e ∈ db.domains, e.orgId = orgId ∧ e.domain = domain ∧ d = f e := by
  obtain ⟨e, he, rfl⟩ := List.mem_map.mp hd
  split_ifs with hsame
  · exact .inr ⟨e, he, hsame.1, hsame.2, rfl⟩
  · exact .inl he

/-- A domain stays verified under an update that does not take the proof back. -/
theorem verified_updateDomain {f : OrgDomain → OrgDomain}
    (hf : ∀ d, d.verified → (f d).orgId = d.orgId ∧ (f d).verified)
    (h : orgHasVerifiedDomain db orgId) : orgHasVerifiedDomain (db.updateDomain orgId domain f) orgId := by
  obtain ⟨d, hd, horg, hverified⟩ := orgHasVerifiedDomain_iff.mp h
  refine orgHasVerifiedDomain_iff.mpr
    ⟨if d.orgId = orgId ∧ d.domain = domain then f d else d, List.mem_map.mpr ⟨d, hd, rfl⟩, ?_⟩
  split_ifs
  · obtain ⟨hsame, hstill⟩ := hf d hverified
    exact ⟨hsame.trans horg, hstill⟩
  · exact ⟨horg, hverified⟩

theorem RequiredVerified.update (h : RequiredVerified db) {f : OrgDomain → OrgDomain}
    (hf : ∀ d ∈ db.domains, d.orgId = orgId → d.domain = domain → (f d).ssoRequired → (f d).verified) :
    RequiredVerified (db.updateDomain orgId domain f) := by
  intro d hd
  rcases mem_updateDomain hd with hold | ⟨e, he, horg, hdomain, rfl⟩
  · exact h d hold
  · exact hf e he horg hdomain

theorem requires_of_claim {row : OrgDomain} (hrow : row.ssoRequired = false)
    (h : orgRequiresSso { db with domains := db.domains ++ [row] } orgId) : orgRequiresSso db orgId := by
  obtain ⟨d, hd, hd'⟩ := orgRequiresSso_iff.mp h
  rcases List.mem_append.mp hd with hold | hnew
  · exact orgRequiresSso_iff.mpr ⟨d, hold, hd'⟩
  · rw [List.mem_singleton.mp hnew, hrow] at hd'
    exact absurd hd'.1.2 (by simp)

theorem verified_claim {row : OrgDomain} (h : orgHasVerifiedDomain db orgId) :
    orgHasVerifiedDomain { db with domains := db.domains ++ [row] } orgId := by
  obtain ⟨d, hd, hd'⟩ := orgHasVerifiedDomain_iff.mp h
  exact orgHasVerifiedDomain_iff.mpr ⟨d, List.mem_append_left _ hd, hd'⟩

/-- The requirement stands on verified rows only, so that it is no stronger after a verification. -/
theorem requires_of_verify (hchecked : RequiredVerified db) {now : Int}
    (h : orgRequiresSso (db.updateDomain orgId domain fun d => { d with verifiedAt := some now }) orgId) :
    orgRequiresSso db orgId := by
  obtain ⟨d, hd, ⟨horg, hrequired⟩, hverified⟩ := orgRequiresSso_iff.mp h
  rcases mem_updateDomain hd with hold | ⟨e, he, heorg, -, rfl⟩
  · exact orgRequiresSso_iff.mpr ⟨d, hold, ⟨horg, hrequired⟩, hverified⟩
  · exact orgRequiresSso_iff.mpr ⟨e, he, ⟨heorg, hrequired⟩, hchecked e he hrequired⟩

theorem requires_of_require {ssoRequired : Bool}
    (h : orgRequiresSso (db.updateDomain orgId domain fun d => { d with ssoRequired := ssoRequired }) orgId) :
    orgRequiresSso db orgId ∨ ssoRequired := by
  obtain ⟨d, hd, ⟨horg, hrequired⟩, hverified⟩ := orgRequiresSso_iff.mp h
  rcases mem_updateDomain hd with hold | ⟨e, he, heorg, -, rfl⟩
  · exact .inl (orgRequiresSso_iff.mpr ⟨d, hold, ⟨horg, hrequired⟩, hverified⟩)
  · exact .inr hrequired

theorem requires_of_deleteDomain (h : orgRequiresSso (db.deleteDomain orgId domain) orgId) :
    orgRequiresSso db orgId := by
  obtain ⟨d, hd, hd'⟩ := orgRequiresSso_iff.mp h
  exact orgRequiresSso_iff.mpr ⟨d, List.mem_of_mem_filter hd, hd'⟩

/-! ### Writes to the provider -/

theorem enabled_insertProvider {row : SsoProvider} (h : (enabledProvider db orgId).isSome) :
    (enabledProvider { db with providers := db.providers ++ [row] } orgId).isSome := by
  obtain ⟨p, hp, hp'⟩ := enabledProvider_isSome_iff.mp h
  exact enabledProvider_isSome_iff.mpr ⟨p, List.mem_append_left _ hp, hp'⟩

theorem enabled_of_insertProvider {row : SsoProvider}
    (h : (enabledProvider { db with providers := db.providers ++ [row] } orgId).isSome) :
    (enabledProvider db orgId).isSome ∨ row.enabled := by
  obtain ⟨p, hp, horg, henabled⟩ := enabledProvider_isSome_iff.mp h
  rcases List.mem_append.mp hp with hold | hnew
  · exact .inl (enabledProvider_isSome_iff.mpr ⟨p, hold, horg, henabled⟩)
  · rw [List.mem_singleton.mp hnew] at henabled
    exact .inr henabled

section updated
variable {id : String} {body : SsoProviderUpsert} {vaultSecretId : Option String}

theorem enabled_updateProvider (henabled : body.enabled) (h : (enabledProvider db orgId).isSome) :
    (enabledProvider (db.updateProvider id fun p => p.updated body vaultSecretId) orgId).isSome := by
  obtain ⟨p, hp, horg, hp'⟩ := enabledProvider_isSome_iff.mp h
  refine enabledProvider_isSome_iff.mpr
    ⟨if p.id = id then p.updated body vaultSecretId else p, List.mem_map.mpr ⟨p, hp, rfl⟩, ?_⟩
  split_ifs
  · exact ⟨horg, henabled⟩
  · exact ⟨horg, hp'⟩

theorem enabled_of_updateProvider
    (h : (enabledProvider (db.updateProvider id fun p => p.updated body vaultSecretId) orgId).isSome) :
    (enabledProvider db orgId).isSome ∨ body.enabled := by
  obtain ⟨p, hp, horg, henabled⟩ := enabledProvider_isSome_iff.mp h
  obtain ⟨q, hq, rfl⟩ := List.mem_map.mp hp
  split_ifs at horg henabled with hid
  · exact .inr henabled
  · exact .inl (enabledProvider_isSome_iff.mpr ⟨q, hq, horg, henabled⟩)

end updated

theorem enabled_of_deleteProvider {id : String} (h : (enabledProvider (db.deleteProvider id) orgId).isSome) :
    (enabledProvider db orgId).isSome := by
  obtain ⟨p, hp, hp'⟩ := enabledProvider_isSome_iff.mp h
  exact enabledProvider_isSome_iff.mpr ⟨p, List.mem_of_mem_filter hp, hp'⟩

/-! ### Steps -/

/-- What every reachable state satisfies. -/
structure SsoSound (orgId : String) (db : SsoTables) : Prop where
  constraint : RequiredVerified db
  noLockout : NoLockout orgId db

/-- What an operation has found at its check still holds. -/
structure SsoPhase.Checked (orgId : String) (db : SsoTables) (_ : ℕ) (x : SsoPhase) : Prop where
  enabled : x.foundEnabled → (enabledProvider db orgId).isSome
  verified : x.foundVerified → orgHasVerifiedDomain db orgId
  unrequired : x.foundUnrequired → orgRequiresSso db orgId = false

/-- What a call of the `k`-th operation leaves: the sound tables, and every check. -/
structure SsoEffect (orgId : String) (others : List SsoPhase) (k : ℕ) (db : SsoTables)
    (after : SsoTables × SsoPhase) : Prop where
  sound : SsoSound orgId after.1
  checked : after.2.Checked orgId after.1 k
  spares : ∀ j, ∀ y ∈ others, y.Checked orgId db j → y.Checked orgId after.1 j

section effect
variable {others : List SsoPhase} {k : ℕ}

theorem checked_of_unfound {x : SsoPhase} (he : x.foundEnabled = false) (hv : x.foundVerified = false)
    (hu : x.foundUnrequired = false) : x.Checked orgId db k := by
  constructor
  · simp [he]
  · simp [hv]
  · simp [hu]

theorem SsoEffect.read (h : SsoSound orgId db) {x : SsoPhase} (hx : x.Checked orgId db k) :
    SsoEffect orgId others k db (db, x) :=
  ⟨h, hx, fun _ _ _ hy => hy⟩

theorem SsoEffect.asked (h : SsoSound orgId db) {x : SsoPhase} (he : x.foundEnabled = false)
    (hv : x.foundVerified = false) (hu : x.foundUnrequired = false) : SsoEffect orgId others k db (db, x) :=
  .read h (checked_of_unfound he hv hu)

theorem SsoEffect.ofDomains (h : SsoSound orgId db) {answer : SsoAnswer}
    (hproviders : db'.providers = db.providers) (hconstraint : RequiredVerified db')
    (hrequired : orgRequiresSso db' orgId → orgRequiresSso db orgId ∨
      (enabledProvider db orgId).isSome ∧ ∀ y ∈ others, y.foundUnrequired = false)
    (hverified : ((enabledProvider db orgId).isSome ∨ ∃ y ∈ others, y.foundVerified) →
      orgHasVerifiedDomain db orgId → orgHasVerifiedDomain db' orgId) :
    SsoEffect orgId others k db (db', .answered answer) := by
  refine ⟨⟨hconstraint, h.noLockout.domains hproviders ?_ ?_⟩, checked_of_unfound rfl rfl rfl, ?_⟩
  · intro hreq
    exact (hrequired hreq).imp id fun hnew => hnew.1
  · intro hsome
    exact hverified (.inl hsome) (h.noLockout.domain hsome)
  · intro j y hy hchecked
    refine ⟨?_, fun hfound => hverified (.inr ⟨y, hy, hfound⟩) (hchecked.verified hfound), ?_⟩
    · rw [enabledProvider_of_providers hproviders]
      exact hchecked.enabled
    · intro hfound
      by_contra hreq
      rcases hrequired (by simpa using hreq) with hold | ⟨-, hnone⟩
      · rw [hchecked.unrequired hfound] at hold
        cases hold
      · rw [hnone y hy] at hfound
        cases hfound

theorem SsoEffect.ofProviders (h : SsoSound orgId db) {answer : SsoAnswer} (hdomains : db'.domains = db.domains)
    (hkept : (orgRequiresSso db orgId ∨ ∃ y ∈ others, y.foundEnabled) →
      (enabledProvider db orgId).isSome → (enabledProvider db' orgId).isSome)
    (hnew : (enabledProvider db' orgId).isSome → (enabledProvider db orgId).isSome ∨
      orgHasVerifiedDomain db orgId) :
    SsoEffect orgId others k db (db', .answered answer) := by
  refine ⟨⟨?_, h.noLockout.providers hdomains (fun hreq => hkept (.inl hreq)) hnew⟩,
    checked_of_unfound rfl rfl rfl, ?_⟩
  · intro d hd
    exact h.constraint d (hdomains ▸ hd)
  · intro j y hy hchecked
    refine ⟨fun hfound => hkept (.inr ⟨y, hy, hfound⟩) (hchecked.enabled hfound), ?_, ?_⟩
    · rw [orgHasVerifiedDomain_of_domains hdomains]
      exact hchecked.verified
    · rw [orgRequiresSso_of_domains hdomains]
      exact hchecked.unrequired

variable {x : SsoSurroundings} {phase : SsoPhase}

/-- **A call on the domains.** -/
theorem domainCall_effect (h : SsoSound orgId db) (hcheck : phase.Checked orgId db k)
    (hno : ∀ y ∈ others, phase.overtakes y = false) (hleaves : phase.LeavesVerified orgId db others) :
    SsoEffect orgId others k db (SsoPhase.domainCall orgId x db phase) := by
  unfold SsoPhase.domainCall
  cases phase with
  | createLookup domain token => simp only; split <;> exact .asked h rfl rfl rfl
  | createInsert domain token =>
      simp only
      split_ifs
      · exact .asked h rfl rfl rfl
      · refine .ofDomains h rfl ?_ (fun hreq => .inl (requires_of_claim rfl hreq)) fun _ => verified_claim
        intro d hd hrequired
        rcases List.mem_append.mp hd with hold | hnew
        · exact h.constraint d hold hrequired
        · rw [List.mem_singleton.mp hnew] at hrequired
          cases hrequired
  | verifyLookup domain =>
      simp only
      split
      · exact .asked h rfl rfl rfl
      · split_ifs <;> exact .asked h rfl rfl rfl
  | verifyClaims row | verifyTxt row => simp only; split_ifs <;> exact .asked h rfl rfl rfl
  | verifyUpdate row =>
      exact .ofDomains h rfl (h.constraint.update fun d _ _ _ _ => rfl)
        (fun hreq => .inl (requires_of_verify h.constraint hreq))
        fun _ => verified_updateDomain fun d _ => ⟨rfl, rfl⟩
  | requireLookup domain ssoRequired =>
      simp only
      split
      · exact .asked h rfl rfl rfl
      · split_ifs <;> exact .asked h rfl rfl rfl
  | requireProvider row =>
      simp only
      split
      · exact .asked h rfl rfl rfl
      · -- the check of the route: the provider is enabled
        rename_i p hp
        exact .read h ⟨fun _ => by rw [hp]; rfl, nofun, nofun⟩
  | requireUpdate row ssoRequired =>
      simp only
      split_ifs with hrefused
      · exact .asked h rfl rfl rfl
      · refine .ofDomains h rfl (h.constraint.update ?_) ?_ fun _ => verified_updateDomain fun d hd => ⟨rfl, hd⟩
        · -- the constraint has let the update through
          intro d hd horg hdomain hrequired
          by_contra hunverified
          refine hrefused ⟨hrequired, List.any_eq_true.mpr ⟨d, hd, ?_⟩⟩
          have hnot : d.verified = false := Bool.eq_false_iff.mpr hunverified
          simp [horg, hdomain, hnot]
        · intro hreq
          rcases requires_of_require hreq with hold | hrequired
          · exact .inl hold
          · refine .inr ⟨hcheck.enabled hrequired, fun y hy => ?_⟩
            have hspared := hno y hy
            simpa [SsoPhase.overtakes, hrequired] using hspared
  | deleteLookup domain => simp only; split <;> exact .asked h rfl rfl rfl
  | deleteRow row =>
      exact .ofDomains h rfl (fun d hd => h.constraint d (List.mem_of_mem_filter hd))
        (fun hreq => .inl (requires_of_deleteDomain hreq)) fun hneeded _ => hleaves hneeded
  | _ => exact .read h hcheck

/-- **A call on the provider.** -/
theorem providerCall_effect (h : SsoSound orgId db) (hcheck : phase.Checked orgId db k)
    (hno : ∀ y ∈ others, phase.overtakes y = false) :
    SsoEffect orgId others k db (SsoPhase.providerCall orgId x db phase) := by
  unfold SsoPhase.providerCall
  cases phase with
  | putCheck body => simp only; split_ifs <;> exact .asked h rfl rfl rfl
  | upsertCheck body =>
      simp only
      split_ifs with hsecret hunverified hrequired
      · exact .asked h rfl rfl rfl
      · exact .asked h rfl rfl rfl
      · exact .asked h rfl rfl rfl
      · -- the checks of the function
        refine .read h ⟨nofun, fun hfound => ?_, fun hfound => ?_⟩
        · have henabled : body.enabled = true := hfound
          simpa [henabled] using hunverified
        · have hdisabled : body.enabled = false := by simpa [SsoPhase.foundUnrequired] using hfound
          simpa [hdisabled] using hrequired
  | upsertRead body => exact .read h ⟨nofun, hcheck.verified, hcheck.unrequired⟩
  | upsertWrite body existing =>
      cases existing with
      | none =>
          simp only
          split_ifs
          · exact .asked h rfl rfl rfl
          · refine .ofProviders h rfl (fun _ => enabled_insertProvider) fun hsome => ?_
            exact (enabled_of_insertProvider hsome).imp id hcheck.verified
      | some found =>
          simp only
          split
          · exact .asked h rfl rfl rfl
          · refine .ofProviders h rfl (fun hneeded => enabled_updateProvider ?_) fun hsome => ?_
            · -- disabling it needs that no domain requires SSO, and nobody else is about to
              by_contra hdisabled
              have hoff : body.enabled = false := by simpa using hdisabled
              rcases hneeded with hreq | ⟨y, hy, hfound⟩
              · rw [hcheck.unrequired (by simp [SsoPhase.foundUnrequired, hoff])] at hreq
                cases hreq
              · have hspared := hno y hy
                simp [SsoPhase.overtakes, hoff, hfound] at hspared
            · exact (enabled_of_updateProvider hsome).imp id hcheck.verified
  | dropCheck => simp only; split_ifs <;> exact .asked h rfl rfl rfl
  | dropExisting => simp only; split <;> exact .asked h rfl rfl rfl
  | rpcDropCheck =>
      simp only
      split_ifs with hrequired
      · exact .asked h rfl rfl rfl
      · exact .read h ⟨nofun, nofun, fun _ => by simpa using hrequired⟩
  | rpcDropRead =>
      simp only
      split
      · exact .asked h rfl rfl rfl
      · exact .read h ⟨nofun, nofun, fun _ => hcheck.unrequired rfl⟩
  | rpcDropRow id =>
      refine .ofProviders h rfl (fun hneeded => ?_) fun hsome => .inl (enabled_of_deleteProvider hsome)
      rcases hneeded with hreq | ⟨y, hy, hfound⟩
      · rw [hcheck.unrequired rfl] at hreq
        cases hreq
      · have hspared : y.foundEnabled = false := hno y hy
        rw [hspared] at hfound
        cases hfound
  | _ => exact .read h hcheck

theorem SsoPhase.fail_checked (error : String) (phase : SsoPhase) : (phase.fail error).Checked orgId db k := by
  cases phase <;> exact checked_of_unfound rfl rfl rfl

end effect

theorem ssoStep_kept {w : Pool SsoTables SsoPhase} {step : SsoStep} (hstep : Undisturbed orgId w step)
    (h : w.Holds (SsoSound orgId) (SsoPhase.Checked orgId)) :
    (ssoStep orgId w step).Holds (SsoSound orgId) (SsoPhase.Checked orgId) := by
  cases step with
  | spawn r =>
      refine h.spawned ?_
      cases r with
      | putSsoProvider body =>
          unfold SsoPhase.begin
          simp only
          split_ifs <;> exact checked_of_unfound rfl rfl rfl
      | _ => exact checked_of_unfound rfl rfl rfl
  | env e => exact nomatch e
  | advance k i =>
      refine h.advanced ?_
      intro phase hx
      cases i with
      | fails error => exact ⟨h.1, phase.fail_checked error, fun j y _ hy => h.2 j y hy⟩
      | succeeds x =>
          obtain ⟨hno, hleaves⟩ := hstep phase hx
          have heffect : SsoEffect orgId w.procs k w.shared (SsoPhase.succeed orgId x w.shared phase) := by
            unfold SsoPhase.succeed
            split
            all_goals first
              | exact providerCall_effect h.1 (h.2 k _ hx) hno
              | exact domainCall_effect h.1 (h.2 k _ hx) hno hleaves
          exact ⟨heffect.sound, heffect.checked,
            fun j y _ hy => heffect.spares j y (List.mem_of_getElem? hy) (h.2 j y hy)⟩

/-- **The requirement never locks out.** -/
theorem requirement_never_locks_out (hconstraint : RequiredVerified db) (hstart : NoLockout orgId db)
    {steps : List SsoStep} (hsteps : StepsMeet (ssoStep orgId) (Undisturbed orgId) (ssoStart db) steps) :
    NoLockout orgId (run (ssoStep orgId) (ssoStart db) steps).shared := by
  have hholds : (ssoStart db).Holds (SsoSound orgId) (SsoPhase.Checked orgId) :=
    ⟨⟨hconstraint, hstart⟩, fun k x hx => by simp [ssoStart] at hx⟩
  exact (run_invariant (fun _ _ => ssoStep_kept) steps _ hholds hsteps).1.noLockout

/-! ### Locked out -/

section lockedOut

def acmeDomain : OrgDomain := ⟨"org", "acme.com", some "token", some 0, false⟩

def acmeProvider : SsoProvider := ⟨"idp", "org", .oidc, "issuer", none, .user, true⟩

/-- One verified domain and an enabled provider. -/
def acmeTables : SsoTables := ⟨[acmeDomain], [acmeProvider]⟩

def acmeDisabled : SsoProviderUpsert := ⟨.oidc, "issuer", .user, false, none⟩

def atOne : SsoOutcome := .succeeds ⟨[], 1, "new", "secret"⟩

/-- The domain is deleted. -/
def deletionSteps : List SsoStep :=
  [.spawn (.deleteOrgDomain "acme.com"), .advance 0 atOne, .advance 0 atOne]

/-- One request finds the provider enabled, another one disables it, and the first one requires
SSO. -/
def skewSteps : List SsoStep :=
  [.spawn (.setOrgDomainSsoRequired "acme.com" true), .advance 0 atOne, .advance 0 atOne,
    .spawn (.putSsoProvider acmeDisabled), .advance 1 atOne, .advance 1 atOne, .advance 1 atOne,
    .advance 1 atOne, .advance 0 atOne]

/-- The calls of one operation, one after the other. -/
def ssoCalls (k n : ℕ) : List SsoStep := List.replicate n (.advance k atOne)

/-- A domain is claimed and verified, and requires SSO while the provider is written anew; then the
first one is deleted, and disabling the provider is refused. -/
def rolloutSteps : List SsoStep :=
  .spawn (.createOrgDomain "acme.org" "proof") :: ssoCalls 0 2 ++
    .spawn (.verifyOrgDomain "acme.org") :: ssoCalls 1 2 ++
    .advance 1 (.succeeds ⟨["proof"], 2, "", ""⟩) :: ssoCalls 1 1 ++
    .spawn (.setOrgDomainSsoRequired "acme.org" true) :: ssoCalls 2 2 ++
    .spawn (.putSsoProvider { acmeDisabled with enabled := true }) :: ssoCalls 3 4 ++ ssoCalls 2 1 ++
    .spawn (.deleteOrgDomain "acme.com") :: ssoCalls 4 2 ++
    .spawn (.putSsoProvider acmeDisabled) :: ssoCalls 5 1

theorem acmeTables_noLockout : NoLockout "org" acmeTables := ⟨by decide, by decide⟩

theorem requirement_never_locks_out_sample :
    orgRequiresSso (run (ssoStep "org") (ssoStart acmeTables) rolloutSteps).shared "org" ∧
      NoLockout "org" (run (ssoStep "org") (ssoStart acmeTables) rolloutSteps).shared := by
  have hsteps : StepsMeet (ssoStep "org") (Undisturbed "org") (ssoStart acmeTables) rolloutSteps := by
    decide +kernel
  exact ⟨by decide +kernel, requirement_never_locks_out (by decide) acmeTables_noLockout hsteps⟩

/-- Nothing is in progress: an enabled provider is left without a verified domain, and a domain
requires SSO without an enabled provider. -/
theorem members_locked_out :
    (Quiescent (run (ssoStep "org") (ssoStart acmeTables) deletionSteps) ∧
      (enabledProvider (run (ssoStep "org") (ssoStart acmeTables) deletionSteps).shared "org").isSome ∧
      ¬ orgHasVerifiedDomain (run (ssoStep "org") (ssoStart acmeTables) deletionSteps).shared "org") ∧
    (Quiescent (run (ssoStep "org") (ssoStart acmeTables) skewSteps) ∧
      orgRequiresSso (run (ssoStep "org") (ssoStart acmeTables) skewSteps).shared "org" ∧
      ¬ (enabledProvider (run (ssoStep "org") (ssoStart acmeTables) skewSteps).shared "org").isSome) := by
  decide

end lockedOut

end Experiential.Identity
