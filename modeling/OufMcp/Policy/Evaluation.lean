import OufMcp.Policy.Bundle

/-!
# The rule of an evaluation

The evaluator scans the grants in order and stops at the first denial.  Its result
is a matter of which grants apply, deny and cover the request, not of where they
stand: the scan is a pair of questions about the list of grants, and a valid bundle
declares a capability once.
-/

namespace OufMcp.Policy

open Ledger (Time)
open Cursor (Identity IdentityClaims zeroTime)
open Relational

/-! ## The declarative rule -/

/-- What a request asks: who asks for which operation of a capability on what, and when. -/
structure Question where
  principal : Identity
  resource : ResourceContext
  capabilityId : String
  operation : String
  now : Time

def Question.label (question : Question) : String := question.resource.attribute "dataAccessLabel"

def Question.requestedDetail (question : Question) : String :=
  question.resource.attribute "detailLevel"

def PolicyBundle.decide (bundle : PolicyBundle) (question : Question) : AuthorizationDecision :=
  evaluate bundle question.principal question.resource question.capabilityId question.operation
    question.now

structure GrantConstraints.Met (c : GrantConstraints) (question : Question) : Prop where
  role : c.externalRoleRef ≠ "" → ∃ claims, question.principal.claims = some claims ∧
    c.externalRoleRef ∈ claims.externalRoleRefs
  resourceType : c.resourceType ≠ "" → c.resourceType = question.resource.resourceType
  resourceId : c.resourceId ≠ "" → c.resourceId = question.resource.resourceId
  attributes : ∀ key value, c.resourceAttributes.lookup key = some value →
    question.resource.attributes.lookup key = some value
  label : c.allowedDataLabels ≠ [] → question.label ∈ c.allowedDataLabels
  detail : c.allowedDetailLevels ≠ [] → question.requestedDetail ∈ c.allowedDetailLevels
  acr : c.requiredAcr ≠ "" → ∃ claims, question.principal.claims = some claims ∧
    claims.acr = c.requiredAcr
  amr : ∀ method ∈ c.requiredAmr, ∃ claims, question.principal.claims = some claims ∧
    method ∈ claims.amr
  age : ∀ seconds, c.maxAuthenticationAgeSeconds = some seconds →
    ∃ claims, question.principal.claims = some claims ∧ claims.authenticatedAt ≠ zeroTime ∧
      claims.authenticatedAt ≤ question.now ∧
      question.now < claims.authenticatedAt + seconds * 1000000000

structure Grant.Applicable (grant : Grant) (question : Question) : Prop where
  capability : grant.capabilityId = question.capabilityId
  tenant : grant.tenantId = question.principal.tenantId
  valid : grant.validFrom ≤ question.now ∧ question.now < grant.validUntil
  organization : grant.organizationId ≠ "" →
    grant.organizationId = question.resource.organizationId
  subject : grant.subjectId ≠ "" → grant.subjectId = question.principal.principalId
  service : grant.servicePrincipalId ≠ "" →
    grant.servicePrincipalId = question.principal.servicePrincipalId
  constraints : ∀ constraints, grant.constraints = some constraints → constraints.Met question

def Grant.Denies (grant : Grant) : Prop :=
  ∃ constraints, grant.constraints = some constraints ∧ constraints.effect = "DENY"

/-- A data label or a detail level that is not public is covered by name. -/
structure Grant.Covers (grant : Grant) (question : Question) : Prop where
  label : question.label ≠ "" → question.label ≠ "OPEN" → question.label ≠ "ANONYMOUS" →
    ∃ constraints, grant.constraints = some constraints ∧
      question.label ∈ constraints.allowedDataLabels
  detail : question.requestedDetail ≠ "" → question.requestedDetail ≠ "PUBLIC_OPERATIONAL" →
    ∃ constraints, grant.constraints = some constraints ∧
      question.requestedDetail ∈ constraints.allowedDetailLevels

/-- The rule by which a bundle allows a request. -/
structure PolicyBundle.Allows (bundle : PolicyBundle) (question : Question) : Prop where
  tenant : question.principal.tenantId ≠ "" ∧
    question.principal.tenantId = question.resource.tenantId
  capability : ∃ descriptor ∈ bundle.capabilities,
    (descriptor.capabilityId = question.capabilityId ∧
      descriptor.operation = question.operation) ∧
    question.principal.actorType ∈ descriptor.allowedActors ∧
    descriptor.requiredScope ∈ question.principal.scopes
  labelled : question.resource.attribute "requiresDataAccessLabel" = "true" → question.label ≠ ""
  human : question.requestedDetail = "SECURITY_SENSITIVE" → question.principal.actorType = "HUMAN"
  undenied : ∀ grant ∈ bundle.grants, grant.Applicable question → ¬ grant.Denies
  granted : ∃ grant ∈ bundle.grants, grant.Applicable question ∧ ¬ grant.Denies ∧
    grant.Covers question

/-! ## The code's tests -/

variable {question : Question}

theorem matches_iff {c : GrantConstraints} :
    c.matches question.principal question.resource question.now = true ↔ c.Met question := by
  simp only [GrantConstraints.matches, Bool.and_eq_true, Bool.or_eq_true, decide_eq_true_eq,
    Option.any_eq_true, List.all_eq_true, Option.all_eq_true]
  constructor
  · rintro ⟨⟨⟨⟨⟨⟨⟨⟨role, kind⟩, id⟩, attributes⟩, label⟩, detail⟩, acr⟩, amr⟩, age⟩
    refine ⟨role.resolve_left, kind.resolve_left, id.resolve_left, ?_, label.resolve_left,
      detail.resolve_left, acr.resolve_left, amr, age⟩
    intro key value found
    have member : key ∈ c.resourceAttributes := Finmap.mem_of_lookup_eq_some found
    rw [attributes key (Finmap.mem_keys.mpr member), found]
  · intro met
    refine ⟨⟨⟨⟨⟨⟨⟨⟨?_, ?_⟩, ?_⟩, ?_⟩, ?_⟩, ?_⟩, ?_⟩, met.amr⟩, met.age⟩
    · exact or_iff_not_imp_left.mpr met.role
    · exact or_iff_not_imp_left.mpr met.resourceType
    · exact or_iff_not_imp_left.mpr met.resourceId
    · intro key member
      obtain ⟨value, found⟩ := Finmap.mem_iff.mp (Finmap.mem_keys.mp member)
      rw [found, met.attributes key value found]
    · exact or_iff_not_imp_left.mpr met.label
    · exact or_iff_not_imp_left.mpr met.detail
    · exact or_iff_not_imp_left.mpr met.acr

theorem applies_iff {grant : Grant} :
    grant.applies question.principal question.resource question.capabilityId question.now = true ↔
      grant.Applicable question := by
  simp only [Grant.applies, Bool.and_eq_true, decide_eq_true_eq, Option.all_eq_true, matches_iff]
  constructor
  · rintro ⟨⟨⟨⟨⟨⟨capability, tenant⟩, valid⟩, organization⟩, subject⟩, service⟩, constraints⟩
    exact ⟨capability, tenant, valid, organization.resolve_left, subject.resolve_left,
      service.resolve_left, constraints⟩
  · intro applicable
    exact ⟨⟨⟨⟨⟨⟨applicable.capability, applicable.tenant⟩, applicable.valid⟩,
      or_iff_not_imp_left.mpr applicable.organization⟩,
      or_iff_not_imp_left.mpr applicable.subject⟩,
      or_iff_not_imp_left.mpr applicable.service⟩, applicable.constraints⟩

theorem denies_iff {grant : Grant} :
    (grant.constraints.any fun c => decide (c.effect = "DENY")) = true ↔ grant.Denies := by
  simp only [Option.any_eq_true, decide_eq_true_eq, Grant.Denies]

theorem covers_iff {grant : Grant} :
    grant.covers question.label question.requestedDetail = true ↔ grant.Covers question := by
  simp only [Grant.covers, Bool.and_eq_true, decide_eq_true_eq, Option.any_eq_true]
  constructor
  · rintro ⟨label, detail⟩
    refine ⟨fun some notOpen notAnonymous => ?_, fun some notPublic => ?_⟩
    · exact ((label.resolve_left some).resolve_left notOpen).resolve_left notAnonymous
    · exact (detail.resolve_left some).resolve_left notPublic
  · intro covers
    constructor
    · by_contra none
      simp only [not_or] at none
      exact none.2.2.2 (covers.label none.1 none.2.1 none.2.2.1)
    · by_contra none
      simp only [not_or] at none
      exact none.2.2 (covers.detail none.1 none.2.1)

/-! ## The scan -/

def Denied (question : Question) (grants : List Grant) : Prop :=
  ∃ grant ∈ grants, grant.Applicable question ∧ grant.Denies

def Covered (question : Question) (grants : List Grant) : Prop :=
  ∃ grant ∈ grants, grant.Applicable question ∧ grant.Covers question

def scan (question : Question) (grants : List Grant) : Option Bool :=
  scanGrants question.principal question.resource question.capabilityId question.now false grants

/-- The scan stops exactly when a grant denies, and otherwise tells whether one covers. -/
theorem scanGrants_eq (allow : Bool) (grants : List Grant) :
    (scanGrants question.principal question.resource question.capabilityId question.now allow
        grants = none ↔ Denied question grants) ∧
      (¬ Denied question grants →
        (scanGrants question.principal question.resource question.capabilityId question.now allow
          grants = some true ↔ allow = true ∨ Covered question grants)) := by
  induction grants generalizing allow with
  | nil => simp [scanGrants, Denied, Covered]
  | cons grant rest ih =>
    have denied : Denied question (grant :: rest) ↔
        (grant.Applicable question ∧ grant.Denies) ∨ Denied question rest := by
      simp [Denied]
    have covered : Covered question (grant :: rest) ↔
        (grant.Applicable question ∧ grant.Covers question) ∨ Covered question rest := by
      simp [Covered]
    rw [denied, covered]
    unfold scanGrants
    split
    next applies =>
      have applicable := applies_iff.mp applies
      split
      next denies =>
        have denies := denies_iff.mp denies
        exact ⟨iff_of_true rfl (.inl ⟨applicable, denies⟩),
          fun none => absurd (.inl ⟨applicable, denies⟩) none⟩
      next denies =>
        have silent : ¬ grant.Denies := fun denying => denies (denies_iff.mpr denying)
        obtain ⟨stops, allows⟩ := ih (allow || grant.covers question.label
          question.requestedDetail)
        refine ⟨stops.trans (by simp [silent]), fun none => ?_⟩
        refine (allows fun later => none (.inr later)).trans ?_
        rw [Bool.or_eq_true, covers_iff, or_assoc]
        simp [applicable]
    next other =>
      have inapplicable : ¬ grant.Applicable question := fun applies =>
        other (applies_iff.mpr applies)
      obtain ⟨stops, allows⟩ := ih allow
      refine ⟨stops.trans (by simp [inapplicable]), fun none => ?_⟩
      exact (allows fun later => none (.inr later)).trans (by simp [inapplicable])

theorem scan_eq_none {grants : List Grant} : scan question grants = none ↔ Denied question grants :=
  (scanGrants_eq false grants).1

theorem scan_eq_true {grants : List Grant} :
    scan question grants = some true ↔ ¬ Denied question grants ∧ Covered question grants := by
  obtain ⟨stops, allows⟩ := @scanGrants_eq question false grants
  by_cases denied : Denied question grants
  · have stopped : scan question grants = none := stops.mpr denied
    simp [stopped, denied]
  · exact (allows denied).trans (by simp [denied])

theorem scan_congr {one two : List Grant} (denied : Denied question one ↔ Denied question two)
    (covered : Covered question one ↔ Covered question two) :
    scan question one = scan question two := by
  have stops : scan question one = none ↔ scan question two = none :=
    scan_eq_none.trans (denied.trans scan_eq_none.symm)
  have allows : scan question one = some true ↔ scan question two = some true := by
    rw [scan_eq_true, scan_eq_true, denied, covered]
  cases first : scan question one with
  | none => exact (stops.mp first).symm
  | some allow =>
    cases second : scan question two with
    | none =>
      rw [stops.mpr second] at first
      cases first
    | some other =>
      rw [first, second, Option.some.injEq, Option.some.injEq] at allows
      exact congrArg some (Bool.eq_iff_iff.mpr allows)

/-! ## The decision -/

def CapabilityDescriptor.declares (descriptor : CapabilityDescriptor) (question : Question) :
    Bool :=
  decide (descriptor.capabilityId = question.capabilityId ∧
    descriptor.operation = question.operation)

def PolicyBundle.descriptor (bundle : PolicyBundle) (question : Question) :
    Option CapabilityDescriptor :=
  bundle.capabilities.find? (·.declares question)

variable {bundle other : PolicyBundle}

/-- A decision depends on a bundle through its name, the descriptor and the scan only. -/
theorem decide_congr (id : other.bundleId = bundle.bundleId)
    (version : other.version = bundle.version)
    (declared : other.descriptor question = bundle.descriptor question)
    (scanned : scan question other.grants = scan question bundle.grants) :
    other.decide question = bundle.decide question := by
  unfold PolicyBundle.decide evaluate
  unfold PolicyBundle.descriptor CapabilityDescriptor.declares at declared
  unfold scan at scanned
  simp only [id, version, declared, scanned]

theorem decide_allowed : (bundle.decide question).allowed = true ↔
    (question.principal.tenantId ≠ "" ∧ question.principal.tenantId = question.resource.tenantId) ∧
    ∃ descriptor, bundle.descriptor question = some descriptor ∧
      question.principal.actorType ∈ descriptor.allowedActors ∧
      descriptor.requiredScope ∈ question.principal.scopes ∧
      (question.resource.attribute "requiresDataAccessLabel" = "true" → question.label ≠ "") ∧
      (question.requestedDetail = "SECURITY_SENSITIVE" →
        question.principal.actorType = "HUMAN") ∧
      scan question bundle.grants = some true := by
  -- one case per gate of the evaluator, in its order
  unfold PolicyBundle.decide evaluate
  simp only []
  split
  next mismatch =>
    refine iff_of_false Bool.false_ne_true ?_
    rintro ⟨⟨some, same⟩, -⟩
    exact absurd same (mismatch.resolve_left some)
  next tenant =>
    have tenant : question.principal.tenantId ≠ "" ∧
        question.principal.tenantId = question.resource.tenantId := by
      simpa only [ne_eq, not_or, Decidable.not_not] using tenant
    rw [and_iff_right tenant]
    split
    next missing =>
      refine iff_of_false Bool.false_ne_true ?_
      rintro ⟨descriptor, declared, -⟩
      cases (show bundle.descriptor question = none from missing).symm.trans declared
    next descriptor found =>
      have only : ∀ {P : CapabilityDescriptor → Prop},
          (∃ d, bundle.descriptor question = some d ∧ P d) ↔ P descriptor := by
        intro P
        rw [show bundle.descriptor question = some descriptor from found]
        simp
      rw [only]
      split
      next actor => exact iff_of_false Bool.false_ne_true fun gates => actor gates.1
      next actor =>
        rw [and_iff_right (Decidable.not_not.mp actor)]
        split
        next scope => exact iff_of_false Bool.false_ne_true fun gates => scope gates.1
        next scope =>
          rw [and_iff_right (Decidable.not_not.mp scope)]
          split
          next label =>
            exact iff_of_false Bool.false_ne_true fun gates => gates.1 label.1 label.2
          next label =>
            have labelled : question.resource.attribute "requiresDataAccessLabel" = "true" →
                question.label ≠ "" := fun required empty => label ⟨required, empty⟩
            rw [and_iff_right labelled]
            split
            next human =>
              exact iff_of_false Bool.false_ne_true fun gates => human.2 (gates.1 human.1)
            next human =>
              have attended : question.requestedDetail = "SECURITY_SENSITIVE" →
                  question.principal.actorType = "HUMAN" :=
                fun sensitive => by_contra fun robot => human ⟨sensitive, robot⟩
              rw [and_iff_right attended]
              change _ ↔ scanGrants _ _ _ _ _ _ = some true
              split
              next stopped => simp [stopped]
              next refused => simp [refused]
              next allowed => simp [allowed]

/-! ## Valid bundles -/

theorem checkCapabilities_nodup {seen caps : List String} {capabilities : List CapabilityDescriptor}
    (checked : checkCapabilities seen capabilities = .ok caps) (distinct : seen.Nodup) :
    (seen.reverse ++ capabilities.map (·.capabilityId)).Nodup := by
  induction capabilities generalizing seen with
  | nil => simpa using distinct
  | cons first rest ih =>
    simp only [checkCapabilities, bind_eq_ok, ensure_eq_ok, exists_const] at checked
    obtain ⟨fresh, -, checked⟩ := checked
    have step := ih checked (List.nodup_cons.mpr ⟨fresh, distinct⟩)
    simpa using step

theorem PolicyBundle.capability_unique (valid : bundle.validate = .ok ())
    {one two : CapabilityDescriptor} (first : one ∈ bundle.capabilities)
    (second : two ∈ bundle.capabilities) (same : one.capabilityId = two.capabilityId) :
    one = two := by
  simp only [PolicyBundle.validate, bind_eq_ok, ensure_eq_ok, exists_const] at valid
  obtain ⟨-, -, caps, checked, -⟩ := valid
  have distinct := checkCapabilities_nodup checked List.nodup_nil
  exact List.inj_on_of_nodup_map (by simpa using distinct) first second same

theorem descriptor_declares {descriptor : CapabilityDescriptor}
    (found : bundle.descriptor question = some descriptor) :
    descriptor ∈ bundle.capabilities ∧ descriptor.declares question = true := by
  unfold PolicyBundle.descriptor at found
  have declares := List.find?_some found
  exact ⟨List.mem_of_find?_eq_some found, declares⟩

theorem descriptor_eq_some (valid : bundle.validate = .ok ()) {descriptor : CapabilityDescriptor} :
    bundle.descriptor question = some descriptor ↔
      descriptor ∈ bundle.capabilities ∧ descriptor.declares question = true := by
  constructor
  · exact descriptor_declares
  · rintro ⟨member, declares⟩
    cases found : bundle.descriptor question with
    | none => exact absurd declares (by simpa using List.find?_eq_none.mp found descriptor member)
    | some first =>
      obtain ⟨among, declared⟩ := descriptor_declares found
      have same := (of_decide_eq_true declared).1.trans (of_decide_eq_true declares).1.symm
      rw [bundle.capability_unique valid among member same]

theorem descriptor_perm (valid : bundle.validate = .ok ())
    (permuted : other.capabilities.Perm bundle.capabilities) :
    other.descriptor question = bundle.descriptor question := by
  cases found : bundle.descriptor question with
  | none =>
    refine List.find?_eq_none.mpr fun descriptor member => ?_
    exact List.find?_eq_none.mp found descriptor (permuted.subset member)
  | some descriptor =>
    obtain ⟨member, declares⟩ := (descriptor_eq_some valid).mp found
    cases first : other.descriptor question with
    | none =>
      have none := List.find?_eq_none.mp first descriptor (permuted.symm.subset member)
      exact absurd declares (by simpa using none)
    | some candidate =>
      obtain ⟨among, declared⟩ := descriptor_declares first
      rw [← found]
      exact ((descriptor_eq_some valid).mpr ⟨permuted.subset among, declared⟩).symm

/-! ## The rule decides -/

theorem decide_allowed_iff (valid : bundle.validate = .ok ()) :
    (bundle.decide question).allowed = true ↔ bundle.Allows question := by
  rw [decide_allowed]
  constructor
  · rintro ⟨tenant, descriptor, found, actor, scope, labelled, human, scanned⟩
    obtain ⟨member, declares⟩ := (descriptor_eq_some valid).mp found
    obtain ⟨undenied, grant, granted, applicable, covers⟩ := scan_eq_true.mp scanned
    have silent : ∀ grant ∈ bundle.grants, grant.Applicable question → ¬ grant.Denies :=
      fun grant member applicable denies => undenied ⟨grant, member, applicable, denies⟩
    exact ⟨tenant, ⟨descriptor, member, of_decide_eq_true declares, actor, scope⟩, labelled, human,
      silent, ⟨grant, granted, applicable, silent grant granted applicable, covers⟩⟩
  · intro allows
    obtain ⟨descriptor, member, declares, actor, scope⟩ := allows.capability
    obtain ⟨grant, granted, applicable, -, covers⟩ := allows.granted
    refine ⟨allows.tenant, descriptor,
      (descriptor_eq_some valid).mpr ⟨member, decide_eq_true declares⟩, actor, scope,
      allows.labelled, allows.human, scan_eq_true.mpr ⟨?_, grant, granted, applicable, covers⟩⟩
    rintro ⟨denying, among, applies, denies⟩
    exact allows.undenied denying among applies denies

theorem denied_perm {one two : List Grant} (permuted : one.Perm two) :
    Denied question one ↔ Denied question two := by
  simp [Denied, permuted.mem_iff]

theorem covered_perm {one two : List Grant} (permuted : one.Perm two) :
    Covered question one ↔ Covered question two := by
  simp [Covered, permuted.mem_iff]

def PolicyBundle.withGrant (bundle : PolicyBundle) (place : Nat) (grant : Grant) : PolicyBundle :=
  { bundle with grants := bundle.grants.take place ++ grant :: bundle.grants.drop place }

theorem withGrant_mem {place : Nat} {grant added : Grant} :
    grant ∈ (bundle.withGrant place added).grants ↔ grant = added ∨ grant ∈ bundle.grants := by
  have whole := congrArg (grant ∈ ·) (List.take_append_drop place bundle.grants)
  simp only [List.mem_append, eq_iff_iff] at whole
  simp only [PolicyBundle.withGrant, List.mem_append, List.mem_cons, ← whole]
  tauto

/-- The evaluator allows exactly what the rule allows.  The order of grants and of
capabilities does not matter to the decision, a denying grant that is added never turns a
denial into an allowance, and a grant for another capability or tenant changes nothing. -/
theorem evaluation_rule (valid : bundle.validate = .ok ()) :
    ((bundle.decide question).allowed = true ↔ bundle.Allows question) ∧
    (∀ capabilities grants, capabilities.Perm bundle.capabilities → grants.Perm bundle.grants →
      { bundle with capabilities, grants }.decide question = bundle.decide question) ∧
    (∀ place grant, grant.Denies →
      ((bundle.withGrant place grant).decide question).allowed = true →
        (bundle.decide question).allowed = true) ∧
    ∀ place grant, grant.capabilityId ≠ question.capabilityId ∨
        grant.tenantId ≠ question.principal.tenantId →
      (bundle.withGrant place grant).decide question = bundle.decide question := by
  refine ⟨decide_allowed_iff valid, ?_, ?_, ?_⟩
  · intro capabilities grants permuted reordered
    exact decide_congr rfl rfl (descriptor_perm valid permuted)
      (scan_congr (denied_perm reordered) (covered_perm reordered))
  · intro place grant denies allowed
    rw [decide_allowed] at allowed ⊢
    obtain ⟨tenant, descriptor, found, actor, scope, labelled, human, scanned⟩ := allowed
    refine ⟨tenant, descriptor, found, actor, scope, labelled, human, scan_eq_true.mpr ?_⟩
    obtain ⟨undenied, covering, among, applicable, covers⟩ := scan_eq_true.mp scanned
    constructor
    · rintro ⟨denying, member, applies, refuses⟩
      exact undenied ⟨denying, withGrant_mem.mpr (.inr member), applies, refuses⟩
    · rcases withGrant_mem.mp among with rfl | member
      · exact absurd ⟨covering, withGrant_mem.mpr (.inl rfl), applicable, denies⟩ undenied
      · exact ⟨covering, member, applicable, covers⟩
  · intro place grant foreign
    have inapplicable : ¬ grant.Applicable question := by
      intro applicable
      rcases foreign with capability | tenant
      · exact capability applicable.capability
      · exact tenant applicable.tenant
    refine decide_congr rfl rfl rfl (scan_congr ?_ ?_)
    · simp [Denied, withGrant_mem, inapplicable]
    · simp [Covered, withGrant_mem, inapplicable]

/-- A bundle that lets any subject read but denies one role. -/
def sampleBundle : PolicyBundle where
  bundleId := "bundle"
  version := 1
  publishedAt := 1
  capabilities := [⟨"ouf.system.status", "READ", "operations.status.read", ["HUMAN"]⟩]
  grants :=
    [⟨none, "grant", "ouf.system.status", "tenant", "user", "", "", 0, 10⟩,
      ⟨some ⟨"DENY", "suspended", "", "", ∅, [], [], "", [], none⟩, "deny", "ouf.system.status",
        "tenant", "", "", "", 0, 10⟩]

def sampleQuestion (roles : List String) : Question where
  principal := ⟨"user", "tenant", "", "HUMAN", "mfa", "issuer", "ouf", ["operations.status.read"],
    some ⟨roles, "", [], 0⟩⟩
  resource := ⟨"capability", "", "tenant", "", ∅⟩
  capabilityId := "ouf.system.status"
  operation := "READ"
  now := 5

theorem evaluation_rule_sampleBundle :
    sampleBundle.validate = .ok () ∧ sampleBundle.Allows (sampleQuestion []) ∧
      ¬ sampleBundle.Allows (sampleQuestion ["suspended"]) := by
  have valid : sampleBundle.validate = .ok () := by decide +kernel
  refine ⟨valid, ?_, ?_⟩
  · exact (evaluation_rule valid).1.mp (by decide +kernel)
  · intro allows
    have allowed := (evaluation_rule valid).1.mpr allows
    revert allowed
    decide +kernel

end OufMcp.Policy
