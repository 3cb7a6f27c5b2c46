import OufMcp.Relational.Table

/-!
# The governed admission schema

The relations of schema `ouf_mcp` that admission, dispatch, recovery, evidence
ingress and late compensation read and write.  Each row type carries the columns
those transactions use; column checks, uniqueness constraints and the `bigint`
range are part of the schema of each relation.  Relations that the source keys by
a generated identifier and addresses by a unique `attempt_id` are keyed by the
attempt.
-/

namespace OufMcp.Ledger

open Relational

abbrev UUID := BitVec 128

/-- Instants and durations, in nanoseconds. -/
abbrev Time := Int

inductive AttemptState where
  | admitted
  | running
  | succeeded
  | failed
  | unknown
  | unresolved
  deriving DecidableEq, Repr

inductive DispatchState where
  | notDispatched
  | dispatched
  | confirmed
  | acknowledged
  | unknown
  deriving DecidableEq, Repr

inductive ReservationState where
  | reserved
  | reconciled
  | released
  | unknown
  deriving DecidableEq, Repr

inductive ClaimState where
  | bound
  | unknown
  | completed
  deriving DecidableEq, Repr

inductive DebtState where
  | active
  | resolved
  deriving DecidableEq, Repr

inductive EvidenceKind where
  | ownerResult
  | ownerProvesNoDispatch
  deriving DecidableEq, Repr

inductive TerminalState where
  | succeeded
  | failed
  deriving DecidableEq, Repr

inductive EvidenceState where
  | verified
  | consumed
  | quarantined
  deriving DecidableEq, Repr

inductive IncidentCategory where
  | evidenceScopeViolation
  | evidenceBindingViolation
  | contractViolation
  | cryptoViolation
  deriving DecidableEq, Repr

/-- The states in which `completed_at` is set. -/
def AttemptState.completed : AttemptState → Bool
  | .succeeded | .failed | .unresolved => true
  | .admitted | .running | .unknown => false

/-- The states from which no transaction is meant to move an attempt. -/
def AttemptState.terminal : AttemptState → Bool
  | .succeeded | .failed => true
  | .admitted | .running | .unknown | .unresolved => false

/-- The states whose effect on the owner is not known. -/
def AttemptState.uncertain : AttemptState → Bool
  | .unknown | .unresolved => true
  | .admitted | .running | .succeeded | .failed => false

def TerminalState.attemptState : TerminalState → AttemptState
  | .succeeded => .succeeded
  | .failed => .failed

def EvidenceKind.ofString? : String → Option EvidenceKind
  | "OWNER_RESULT" => some .ownerResult
  | "OWNER_PROVES_NO_DISPATCH" => some .ownerProvesNoDispatch
  | _ => none

def TerminalState.ofString? : String → Option TerminalState
  | "SUCCEEDED" => some .succeeded
  | "FAILED" => some .failed
  | _ => none

/-- The range of SQL `bigint` and of Go `int64`. -/
def bigint (value : Int) : Bool := decide (-2 ^ 63 ≤ value ∧ value < 2 ^ 63)

def integer (value : Int) : Bool := decide (-2 ^ 31 ≤ value ∧ value < 2 ^ 31)

def hexDigit (character : Char) : Bool :=
  decide ('0' ≤ character ∧ character ≤ '9') || decide ('a' ≤ character ∧ character ≤ 'f')

/-- The pattern `^[0-9a-f]{64}$`. -/
def hexDigest (text : String) : Bool :=
  decide (text.toList.length = 64) && text.toList.all hexDigit

/-! ## Rows -/

/-- `tool_attempt` -/
structure ToolAttempt where
  servicePrincipalId : String
  principalId : String
  tenantId : String
  capabilityId : String
  operationClass : String
  manifestChecksum : String
  idempotencyKey : String
  requestHash : String
  correlationId : String
  state : AttemptState
  dispatchState : DispatchState
  backendRequestId : Option String
  admittedAt : Time
  completedAt : Option Time
  leaseUntil : Option Time
  lockVersion : Nat
  recoveryOwner : Option String
  recoveryLeaseUntil : Option Time
  unknownSince : Option Time
  outcomeCode : Option String
  resultRef : Option String
  outcomeRevision : Nat
  deriving DecidableEq, Repr

def toolAttempt : Schema ToolAttempt where
  check row :=
    hexDigest row.requestHash
      && decide ((row.state = .running) ↔ row.leaseUntil.isSome = true)
      && decide (row.state.completed = row.completedAt.isSome)
      && decide (row.recoveryOwner.isNone = row.recoveryLeaseUntil.isNone)
  clash a b :=
    decide (a.servicePrincipalId = b.servicePrincipalId ∧ a.principalId = b.principalId ∧
        a.tenantId = b.tenantId ∧ a.capabilityId = b.capabilityId ∧
        a.operationClass = b.operationClass ∧ a.idempotencyKey = b.idempotencyKey)
      || (a.backendRequestId.isSome && decide (a.backendRequestId = b.backendRequestId))

/-- `attempt_admission_context` -/
structure AdmissionContext where
  budgetWindowId : UUID
  equivalenceGroupId : UUID
  owner : String
  deriving DecidableEq, Repr

def attemptAdmissionContext : Schema AdmissionContext where
  check _ := true
  clash _ _ := false

/-- `budget_reservation` -/
structure BudgetReservation where
  budgetWindowId : UUID
  reservedToolCalls : Int
  reservedResultBytes : Int
  reservedDistinctObjectsMax : Int
  state : ReservationState
  actualToolCalls : Option Int
  actualResultBytes : Option Int
  actualDistinctObjects : Option Int
  actualUnresolvedObjectDebtMax : Int
  deriving DecidableEq, Repr

def budgetReservation : Schema BudgetReservation where
  check row :=
    bigint row.reservedToolCalls && bigint row.reservedResultBytes
      && bigint row.reservedDistinctObjectsMax
      && row.actualToolCalls.all bigint && row.actualResultBytes.all bigint
      && row.actualDistinctObjects.all bigint
      && decide (0 ≤ row.reservedDistinctObjectsMax)
      && decide (0 ≤ row.actualUnresolvedObjectDebtMax ∧
        row.actualUnresolvedObjectDebtMax ≤ row.reservedDistinctObjectsMax)
  clash _ _ := false

/-- The tuple under which a caller replays a request. -/
structure ClaimKey where
  servicePrincipalId : String
  principalId : String
  tenantId : String
  owner : String
  capabilityId : String
  operationClass : String
  idempotencyKey : String
  deriving DecidableEq, Repr

/-- `idempotency_claim` -/
structure IdempotencyClaim where
  key : ClaimKey
  requestHash : String
  state : ClaimState
  lockVersion : Nat
  deriving DecidableEq, Repr

def idempotencyClaim : Schema IdempotencyClaim where
  check row := hexDigest row.requestHash
  clash a b := decide (a.key = b.key)

/-- `budget_window` -/
structure BudgetWindow where
  servicePrincipalId : String
  principalId : String
  tenantId : String
  policyRef : String
  windowStart : Time
  windowEnd : Time
  reservedToolCalls : Int
  consumedToolCalls : Int
  reservedResultBytes : Int
  consumedResultBytes : Int
  reservedDistinctObjects : Int
  consumedDistinctObjects : Int
  currentUnresolvedObjectDebtTotal : Int
  allowedObjectHashVersions : List String
  deriving DecidableEq, Repr

def budgetWindow : Schema BudgetWindow where
  check row :=
    decide (row.windowStart < row.windowEnd)
      && bigint row.reservedToolCalls && bigint row.consumedToolCalls
      && bigint row.reservedResultBytes && bigint row.consumedResultBytes
      && bigint row.reservedDistinctObjects && bigint row.consumedDistinctObjects
      && bigint row.currentUnresolvedObjectDebtTotal
      && decide (0 ≤ row.reservedDistinctObjects)
      && decide (0 ≤ row.consumedDistinctObjects)
      && decide (0 ≤ row.currentUnresolvedObjectDebtTotal)
  clash a b :=
    decide (a.servicePrincipalId = b.servicePrincipalId ∧ a.principalId = b.principalId ∧
      a.tenantId = b.tenantId ∧ a.policyRef = b.policyRef ∧ a.windowStart = b.windowStart)

/-- `retry_equivalence_group` -/
structure EquivalenceGroup where
  budgetWindowId : UUID
  capabilityId : String
  fingerprintVersion : String
  semanticFingerprint : String
  deriving DecidableEq, Repr

def retryEquivalenceGroup : Schema EquivalenceGroup where
  check _ := true
  clash a b := decide (a = b)

/-- `retry_guard` -/
structure RetryGuard where
  equivalentAttempts : Int
  blocked : Bool
  blockingAttempts : Int
  deriving DecidableEq, Repr

def retryGuard : Schema RetryGuard where
  check row :=
    integer row.equivalentAttempts && integer row.blockingAttempts
      && decide (0 ≤ row.blockingAttempts)
  clash _ _ := false

/-- `owner_evidence_inbox` -/
structure InboxEvidence where
  attemptId : UUID
  budgetWindowId : UUID
  backendOwner : String
  backendRequestId : String
  evidenceKind : EvidenceKind
  terminalState : TerminalState
  terminalOutcomeCode : String
  resultRef : Option String
  actualDistinctObjects : Int
  objectHashes : List String
  evidencePayloadHash : String
  evidenceState : EvidenceState
  consumedAt : Option Time
  deriving DecidableEq, Repr

def ownerEvidenceInbox : Schema InboxEvidence where
  check row :=
    decide (0 ≤ row.actualDistinctObjects) && bigint row.actualDistinctObjects
      && hexDigest row.evidencePayloadHash
      && decide ((row.evidenceState = .verified) ↔ row.consumedAt = none)
      && (decide (row.evidenceKind ≠ .ownerProvesNoDispatch) ||
        decide (row.terminalState = .failed ∧ row.terminalOutcomeCode = "DISPATCH_NOT_STARTED" ∧
          row.actualDistinctObjects = 0 ∧ row.objectHashes = [] ∧ row.resultRef = none))
      && (decide (row.evidenceKind ≠ .ownerResult) || row.resultRef.isSome)
  clash a b :=
    decide (a.backendOwner = b.backendOwner ∧ a.backendRequestId = b.backendRequestId)

/-- `budget_object_debt` -/
structure ObjectDebt where
  budgetWindowId : UUID
  debtAmount : Int
  debtState : DebtState
  ownerEvidenceRef : Option UUID
  resolvedAt : Option Time
  deriving DecidableEq, Repr

def budgetObjectDebt : Schema ObjectDebt where
  check row :=
    decide (0 < row.debtAmount) && bigint row.debtAmount
      && match row.debtState with
        | .active => row.resolvedAt.isNone && row.ownerEvidenceRef.isNone
        | .resolved => row.resolvedAt.isSome && row.ownerEvidenceRef.isSome
  clash _ _ := false

/-! ## Object hashes -/

def splitColon : List Char → List (List Char)
  | [] => [[]]
  | character :: rest =>
    if character = ':' then [] :: splitColon rest
    else match splitColon rest with
      | [] => [[character]]
      | first :: others => (character :: first) :: others

def decimalDigit (character : Char) : Bool := decide ('0' ≤ character ∧ character ≤ '9')

def base64UrlCharacter (character : Char) : Bool :=
  decide ('A' ≤ character ∧ character ≤ 'Z') || decide ('a' ≤ character ∧ character ≤ 'z')
    || decimalDigit character || character == '_' || character == '-'

/-- The pattern `^v[0-9]+:(hmac-sha256|hmac-sha384):[A-Za-z0-9_-]{32,512}$`. -/
def objectHashPattern (hash : String) : Bool :=
  match splitColon hash.toList with
  | [version, algorithm, body] =>
    (match version with
      | 'v' :: digits => !digits.isEmpty && digits.all decimalDigit
      | _ => false)
      && (algorithm == "hmac-sha256".toList || algorithm == "hmac-sha384".toList)
      && body.all base64UrlCharacter && decide (32 ≤ body.length ∧ body.length ≤ 512)
  | _ => false

/-- `strings.SplitN(hash, ":", 2)[0]` -/
def hashKeyVersion (hash : String) : String :=
  String.ofList (hash.toList.takeWhile (· ≠ ':'))

/-- `budget_distinct_object`, keyed by all of its columns. -/
structure DistinctObject where
  budgetWindowId : UUID
  objectHashKeyVersion : String
  objectIdHash : String
  deriving DecidableEq, Repr

def budgetDistinctObject : Schema DistinctObject where
  check row :=
    objectHashPattern row.objectIdHash && decide (row.objectIdHash.toList.length ≤ 640)
      && decide (hashKeyVersion row.objectIdHash = row.objectHashKeyVersion)
  clash _ _ := false

/-- `budget_adjustment`, keyed by its unique `adjustment_key`. -/
structure BudgetAdjustment where
  budgetWindowId : UUID
  attemptId : UUID
  ownerEvidenceRef : UUID
  priorOutcomeRevision : Int
  newOutcomeRevision : Int
  distinctObjectDelta : Int
  unresolvedDebtDelta : Int
  deriving DecidableEq, Repr

def budgetAdjustment : Schema BudgetAdjustment where
  check row :=
    decide (0 ≤ row.priorOutcomeRevision)
      && decide (row.newOutcomeRevision = row.priorOutcomeRevision + 1)
      && decide (0 ≤ row.distinctObjectDelta) && decide (row.unresolvedDebtDelta ≤ 0)
      && decide (row.distinctObjectDelta + row.unresolvedDebtDelta ≤ 0)
  clash a b :=
    decide (a.ownerEvidenceRef = b.ownerEvidenceRef)
      || decide (a.attemptId = b.attemptId ∧ a.newOutcomeRevision = b.newOutcomeRevision)

/-- `security_incident` -/
structure SecurityIncident where
  attemptId : UUID
  evidenceRef : UUID
  category : IncidentCategory
  detailCode : String
  evidencePayloadHash : String
  deriving DecidableEq, Repr

def securityIncident : Schema SecurityIncident where
  check _ := true
  clash _ _ := false

/-! ## The audit journal -/

/-- The `safe_detail` documents the modelled transactions write. -/
inductive SafeDetail where
  | empty
  | attemptUncertainty (lifecycleState severity : String) (actionRequired : Bool)
      (errorCode : String) (ownerState : AttemptState) (ownerRevision : Nat) (firstSeenAt : Time)
  | securityEvidence
  | debtCacheRepaired (budgetWindowId : UUID) (priorCachedDebt authoritativeActiveDebt delta : Int)
  | outcome (outcomeCode : String)
  | decision (outcomeCode authorizationDecisionRef permittedDetailLevel : String)
      (redacted : Bool)
  deriving DecidableEq, Repr

/-- `audit_event` -/
structure AuditEvent where
  eventType : String
  actorType : String
  servicePrincipalId : Option String
  attemptId : Option UUID
  manifestChecksum : Option String
  safeDetail : SafeDetail
  deriving DecidableEq, Repr

/-- The trigger `operational_attempt_audit`; `old` is absent on insert. -/
def captureOperationalAttemptAudit (id : UUID) (old : Option ToolAttempt) (new : ToolAttempt) :
    List AuditEvent :=
  let silent := match old with
    | some previous => decide (new.state = previous.state) ||
        (!new.state.uncertain && !previous.state.uncertain)
    | none => !new.state.uncertain
  let firstSeenAt := new.unknownSince.getD new.admittedAt
  let record (eventKind lifecycle severity : String) (action : Bool) (code : String) :
      AuditEvent :=
    { eventType := eventKind, actorType := "SYSTEM"
      servicePrincipalId := some new.servicePrincipalId
      attemptId := some id, manifestChecksum := some new.manifestChecksum
      safeDetail := .attemptUncertainty lifecycle severity action code new.state
        new.lockVersion firstSeenAt }
  if silent then []
  else match new.state with
    | .unknown => [record "OPERATIONAL_ATTEMPT_UNKNOWN" "RECOVERING" "WARNING" false
        "ATTEMPT_OUTCOME_UNCERTAIN"]
    | .unresolved => [record "OPERATIONAL_ATTEMPT_UNRESOLVED" "OPEN" "ERROR" true
        "ATTEMPT_RECONCILIATION_EXHAUSTED"]
    | .succeeded | .failed => [record "OPERATIONAL_ATTEMPT_RECONCILED" "RESOLVED" "INFO" false
        "ATTEMPT_UNCERTAINTY_CLEARED"]
    | .admitted | .running => []

/-- The trigger `operational_security_audit`. -/
def captureOperationalSecurityAudit (incident : SecurityIncident) (attempt : Option ToolAttempt) :
    AuditEvent where
  eventType := "OPERATIONAL_SECURITY_ATTENTION"
  actorType := "SYSTEM"
  servicePrincipalId := attempt.map (·.servicePrincipalId)
  attemptId := some incident.attemptId
  manifestChecksum := attempt.map (·.manifestChecksum)
  safeDetail := .securityEvidence

/-! ## The database -/

structure Database where
  manifestSnapshot : List String
  attempts : Table UUID toolAttempt
  contexts : Table UUID attemptAdmissionContext
  reservations : Table UUID budgetReservation
  claims : Table UUID idempotencyClaim
  windows : Table UUID budgetWindow
  groups : Table UUID retryEquivalenceGroup
  guards : Table UUID retryGuard
  evidence : Table UUID ownerEvidenceInbox
  debts : Table UUID budgetObjectDebt
  objects : Table DistinctObject budgetDistinctObject
  adjustments : Table String budgetAdjustment
  incidents : Table String securityIncident
  audit : List AuditEvent

namespace Database

/-- The database after migration, holding only registered manifests. -/
def migrated (manifestSnapshot : List String) : Database where
  manifestSnapshot := manifestSnapshot
  attempts := .empty
  contexts := .empty
  reservations := .empty
  claims := .empty
  windows := .empty
  groups := .empty
  guards := .empty
  evidence := .empty
  debts := .empty
  objects := .empty
  adjustments := .empty
  incidents := .empty
  audit := []

/-- `sum(debt_amount)` over the `ACTIVE` debts of a window. -/
def activeDebt (db : Database) (window : UUID) : Int :=
  db.debts.sum fun _ debt =>
    if debt.budgetWindowId = window ∧ debt.debtState = .active then debt.debtAmount else 0

end Database

end OufMcp.Ledger
