import OufMcp.Cursor.Frame

/-!
# Policy bundles and decisions

The authorization bundle, what its validation accepts, and the evaluation of a
request against it.  Grants are scanned in order: the first matching grant with
a `DENY` effect decides, and a request that no grant allows is denied.
-/

namespace OufMcp.Policy

open Ledger (Time)
open Cursor (Identity IdentityClaims zeroTime)
open Relational

/-- `map[string]string` -/
abbrev Attributes := Finmap fun _ : String => String

structure GrantConstraints where
  effect : String
  externalRoleRef : String
  resourceType : String
  resourceId : String
  resourceAttributes : Attributes
  allowedDataLabels : List String
  allowedDetailLevels : List String
  requiredAcr : String
  requiredAmr : List String
  maxAuthenticationAgeSeconds : Option Int
  deriving DecidableEq

structure Grant where
  constraints : Option GrantConstraints
  grantId : String
  capabilityId : String
  tenantId : String
  subjectId : String
  servicePrincipalId : String
  organizationId : String
  validFrom : Time
  validUntil : Time
  deriving DecidableEq

structure CapabilityDescriptor where
  capabilityId : String
  operation : String
  requiredScope : String
  allowedActors : List String
  deriving DecidableEq

structure PolicyBundle where
  bundleId : String
  version : Int
  publishedAt : Time
  capabilities : List CapabilityDescriptor
  grants : List Grant
  deriving DecidableEq

structure ActivePolicyBundle where
  contentHash : String
  bundleId : String
  bundleVersion : Int
  activatedAt : Time
  bundle : PolicyBundle
  deriving DecidableEq

/-! ## Validation -/

inductive BundleError where
  | metadataIncomplete
  | pointerMismatch
  | identityIncomplete
  | cardinality
  | duplicateCapability
  | capabilityIncomplete
  | grantReference
  | grantEffect
  | constraintsLimit
  | freshnessLimit
  | grantIncomplete
  | grantSubject
  deriving DecidableEq, Repr

def BundleError.text : BundleError → String
  | .metadataIncomplete => "active bundle metadata is incomplete"
  | .pointerMismatch => "active pointer does not match embedded bundle"
  | .identityIncomplete => "bundle identity is incomplete"
  | .cardinality => "bundle cardinality limit"
  | .duplicateCapability => "duplicate capability"
  | .capabilityIncomplete => "capability descriptor is incomplete"
  | .grantReference => "invalid grant reference"
  | .grantEffect => "invalid grant effect"
  | .constraintsLimit => "policy constraints limit"
  | .freshnessLimit => "authentication freshness limit"
  | .grantIncomplete => "grant is incomplete"
  | .grantSubject => "grant requires subject or service principal"

def GrantConstraints.validate (c : GrantConstraints) : Except BundleError Unit := do
  ensure (c.effect = "" ∨ c.effect = "ALLOW" ∨ c.effect = "DENY") .grantEffect
  ensure (c.resourceAttributes.keys.card ≤ 64 ∧ c.allowedDataLabels.length ≤ 64 ∧
    c.allowedDetailLevels.length ≤ 16 ∧ c.requiredAmr.length ≤ 32) .constraintsLimit
  ensure (∀ age ∈ c.maxAuthenticationAgeSeconds, 1 ≤ age ∧ age ≤ 86400) .freshnessLimit

def checkCapabilities : List String → List CapabilityDescriptor → Except BundleError (List String)
  | caps, [] => pure caps
  | caps, c :: rest => do
      ensure (c.capabilityId ∉ caps) .duplicateCapability
      ensure (c.capabilityId ≠ "" ∧ c.operation ≠ "" ∧ c.requiredScope ≠ "") .capabilityIncomplete
      checkCapabilities (c.capabilityId :: caps) rest

def checkConstraints : Option GrantConstraints → Except BundleError Unit
  | some constraints => constraints.validate
  | none => pure ()

def checkGrants (caps : List String) : List String → List Grant → Except BundleError Unit
  | _, [] => pure ()
  | grants, g :: rest => do
      ensure (g.grantId ∉ grants ∧ g.capabilityId ∈ caps) .grantReference
      checkConstraints g.constraints
      ensure (g.grantId ≠ "" ∧ g.capabilityId ≠ "" ∧ g.tenantId ≠ "" ∧ g.validFrom ≠ zeroTime ∧
        g.validUntil ≠ zeroTime ∧ g.validFrom < g.validUntil) .grantIncomplete
      ensure (g.subjectId ≠ "" ∨ g.servicePrincipalId ≠ "" ∨
        (g.constraints.any fun c => decide (c.externalRoleRef ≠ "")) = true) .grantSubject
      checkGrants caps (g.grantId :: grants) rest

def PolicyBundle.validate (b : PolicyBundle) : Except BundleError Unit := do
  ensure (b.bundleId ≠ "" ∧ 1 ≤ b.version ∧ b.publishedAt ≠ zeroTime) .identityIncomplete
  ensure (b.capabilities.length ≤ 10000 ∧ b.grants.length ≤ 10000) .cardinality
  let caps ← checkCapabilities [] b.capabilities
  checkGrants caps [] b.grants

def ActivePolicyBundle.validate (a : ActivePolicyBundle) : Except BundleError Unit := do
  ensure (a.bundleId ≠ "" ∧ 1 ≤ a.bundleVersion ∧ a.activatedAt ≠ zeroTime) .metadataIncomplete
  ensure (a.bundle.bundleId = a.bundleId ∧ a.bundle.version = a.bundleVersion) .pointerMismatch
  a.bundle.validate

/-! ## Evaluation -/

structure ResourceContext where
  resourceType : String
  resourceId : String
  tenantId : String
  organizationId : String
  attributes : Attributes
  deriving DecidableEq

def ResourceContext.attribute (r : ResourceContext) (key : String) : String :=
  (r.attributes.lookup key).getD ""

def GrantConstraints.matches (c : GrantConstraints) (p : Identity) (r : ResourceContext)
    (now : Time) : Bool :=
  let claim (test : IdentityClaims → Bool) : Bool := p.claims.any test
  (decide (c.externalRoleRef = "") ||
    claim fun claims => decide (c.externalRoleRef ∈ claims.externalRoleRefs)) &&
  decide (c.resourceType = "" ∨ c.resourceType = r.resourceType) &&
  decide (c.resourceId = "" ∨ c.resourceId = r.resourceId) &&
  decide (∀ k ∈ c.resourceAttributes.keys,
    r.attributes.lookup k = c.resourceAttributes.lookup k) &&
  decide (c.allowedDataLabels = [] ∨ r.attribute "dataAccessLabel" ∈ c.allowedDataLabels) &&
  decide (c.allowedDetailLevels = [] ∨ r.attribute "detailLevel" ∈ c.allowedDetailLevels) &&
  (decide (c.requiredAcr = "") || claim fun claims => decide (claims.acr = c.requiredAcr)) &&
  (c.requiredAmr.all fun amr => claim fun claims => decide (amr ∈ claims.amr)) &&
  (c.maxAuthenticationAgeSeconds.all fun age => claim fun claims =>
    decide (claims.authenticatedAt ≠ zeroTime ∧ claims.authenticatedAt ≤ now ∧
      now < claims.authenticatedAt + age * 1000000000))

inductive DecisionCode where
  | tenantMismatch
  | capabilityNotDeclared
  | actorNotAllowed
  | scopeMissing
  | dataLabelRequired
  | humanRequired
  | explicitDeny
  | noApplicableGrant
  | allow
  deriving DecidableEq, Repr

def DecisionCode.text : DecisionCode → String
  | .tenantMismatch => "TENANT_MISMATCH"
  | .capabilityNotDeclared => "CAPABILITY_NOT_DECLARED"
  | .actorNotAllowed => "ACTOR_NOT_ALLOWED"
  | .scopeMissing => "SCOPE_MISSING"
  | .dataLabelRequired => "DATA_LABEL_REQUIRED"
  | .humanRequired => "HUMAN_REQUIRED"
  | .explicitDeny => "EXPLICIT_DENY"
  | .noApplicableGrant => "NO_APPLICABLE_GRANT"
  | .allow => "ALLOW"

structure AuthorizationDecision where
  permittedDetailLevel : String
  resourceScope : Attributes
  allowed : Bool
  decisionRef : String
  decisionCode : DecisionCode
  bundleId : String
  bundleVersion : Int
  deriving DecidableEq

/-- Whether a grant is about the request at all. -/
def Grant.applies (grant : Grant) (principal : Identity) (resource : ResourceContext)
    (capabilityId : String) (now : Time) : Bool :=
  decide (grant.capabilityId = capabilityId ∧ grant.tenantId = principal.tenantId) &&
  decide (grant.validFrom ≤ now ∧ now < grant.validUntil) &&
  decide (grant.organizationId = "" ∨ grant.organizationId = resource.organizationId) &&
  decide (grant.subjectId = "" ∨ grant.subjectId = principal.principalId) &&
  decide (grant.servicePrincipalId = "" ∨
    grant.servicePrincipalId = principal.servicePrincipalId) &&
  (grant.constraints.all fun constraints => constraints.matches principal resource now)

def Grant.covers (grant : Grant) (label requestedDetail : String) : Bool :=
  decide (label = "" ∨ label = "OPEN" ∨ label = "ANONYMOUS" ∨
    (grant.constraints.any fun c => decide (label ∈ c.allowedDataLabels)) = true) &&
  decide (requestedDetail = "" ∨ requestedDetail = "PUBLIC_OPERATIONAL" ∨
    (grant.constraints.any fun c => decide (requestedDetail ∈ c.allowedDetailLevels)) = true)

/-- The scan over the grants: none when one of them denies explicitly. -/
def scanGrants (principal : Identity) (resource : ResourceContext) (capabilityId : String)
    (now : Time) : Bool → List Grant → Option Bool
  | allow, [] => some allow
  | allow, grant :: rest =>
    if grant.applies principal resource capabilityId now = true then
      if (grant.constraints.any fun c => decide (c.effect = "DENY")) = true then none
      else
        scanGrants principal resource capabilityId now
          (allow || grant.covers (resource.attribute "dataAccessLabel")
            (resource.attribute "detailLevel")) rest
    else scanGrants principal resource capabilityId now allow rest

def resourceScope (resource : ResourceContext) : Attributes :=
  let identified := ((∅ : Attributes).insert "tenantId" resource.tenantId).insert "resourceType"
    resource.resourceType
  let named := if resource.resourceId ≠ "" then identified.insert "resourceId" resource.resourceId
    else identified
  ["module", "sourceRef", "jobRef", "dataAccessLabel"].foldl (fun scope key =>
    match resource.attributes.lookup key with
    | some value => scope.insert key value
    | none => scope) named

def evaluate (bundle : PolicyBundle) (principal : Identity) (resource : ResourceContext)
    (capabilityId operation : String) (now : Time) : AuthorizationDecision :=
  let ref := bundle.bundleId ++ ":" ++ toString bundle.version ++ ":" ++ capabilityId
  let deny (code : DecisionCode) : AuthorizationDecision :=
    ⟨"", ∅, false, ref, code, bundle.bundleId, bundle.version⟩
  let descriptor := bundle.capabilities.find? fun candidate =>
    decide (candidate.capabilityId = capabilityId ∧ candidate.operation = operation)
  let label := resource.attribute "dataAccessLabel"
  let requestedDetail := resource.attribute "detailLevel"
  if principal.tenantId = "" ∨ principal.tenantId ≠ resource.tenantId then deny .tenantMismatch
  else
    match descriptor with
    | none => deny .capabilityNotDeclared
    | some descriptor =>
      if principal.actorType ∉ descriptor.allowedActors then deny .actorNotAllowed
      else if descriptor.requiredScope ∉ principal.scopes then deny .scopeMissing
      else if resource.attribute "requiresDataAccessLabel" = "true" ∧ label = "" then
        deny .dataLabelRequired
      else if requestedDetail = "SECURITY_SENSITIVE" ∧ principal.actorType ≠ "HUMAN" then
        deny .humanRequired
      else
        match scanGrants principal resource capabilityId now false bundle.grants with
        | none => deny .explicitDeny
        | some false => deny .noApplicableGrant
        | some true =>
          ⟨if requestedDetail = "" then "PUBLIC_OPERATIONAL" else requestedDetail,
            resourceScope resource, true, ref, .allow, bundle.bundleId, bundle.version⟩

end OufMcp.Policy
