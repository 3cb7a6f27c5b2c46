import OufMcp.Ledger.Schema
import OufMcp.Relational.Transaction

/-!
# Admission

`AdmissionWindowBudget` and the serializable body of `Store.Reserve`.  Go `int64`
arithmetic wraps; the same sums written by SQL are refused when they leave the
`bigint` range.  Identifiers that the source draws with `uuid.New` are inputs.
-/

namespace OufMcp.Ledger

open Relational

structure Cost where
  toolCalls : Int
  distinctObjects : Int
  resultBytes : Int
  deriving DecidableEq, Repr

structure Identity where
  servicePrincipalId : String
  principalId : String
  tenantId : String
  deriving DecidableEq, Repr

structure AdmissionRequest where
  budgetProfile : String
  attemptId : UUID
  identity : Identity
  capabilityId : String
  owner : String
  operationClass : String
  manifestChecksum : String
  idempotencyKey : String
  requestHash : String
  semanticFingerprint : String
  fingerprintVersion : String
  correlationId : String
  window : Time
  retryThreshold : Int
  maximum : Cost
  deriving DecidableEq, Repr

structure AdmissionDecision where
  attemptId : UUID
  lockVersion : Nat
  replay : Bool
  deriving DecidableEq, Repr

inductive StoreError where
  | invalidAdmissionPolicy
  | unsupportedOperationalControlBudget
  | idempotencyConflict
  | idempotencyOutcomeUnknown
  | budgetExhausted
  | groupLocked
  | toolSelectionStall
  | actualObjectsExceedReservation
  | recoveryClaimCas
  | recoveryRowCount
  | invalidOwnerEvidence
  | reservationNotUnknown
  | ownerCostExceedsReservation
  | objectEvidenceRequired
  | unresolvedReservationMismatch
  | ingressConflict
  | ownerMismatch
  | attemptRevisionCas
  | noDispatchProofRequired
  | noRows
  | scanNull
  | constraintViolation
  deriving DecidableEq, Repr

/-- The text of each error the store returns; the last three come from the driver. -/
def StoreError.text : StoreError → String
  | .invalidAdmissionPolicy => "invalid admission policy"
  | .unsupportedOperationalControlBudget => "unsupported operational control budget"
  | .idempotencyConflict => "idempotency key reused with different request"
  | .idempotencyOutcomeUnknown => "idempotency outcome unknown"
  | .budgetExhausted => "orchestration budget exhausted"
  | .groupLocked => "equivalence group locked by uncertain attempt"
  | .toolSelectionStall => "tool selection stalled"
  | .actualObjectsExceedReservation => "actual distinct objects exceed reservation"
  | .recoveryClaimCas => "recovery claim CAS failed"
  | .recoveryRowCount => "recovery CAS affected an unexpected row count"
  | .invalidOwnerEvidence => "invalid owner recovery evidence"
  | .reservationNotUnknown => "recovery reservation is not UNKNOWN"
  | .ownerCostExceedsReservation => "owner actual cost exceeds reservation"
  | .objectEvidenceRequired => "object-bearing uncertainty requires verified inbox evidence"
  | .unresolvedReservationMismatch => "unresolved reservation state mismatch"
  | .ingressConflict => "evidence ingress conflict"
  | .ownerMismatch => "evidence owner differs from trusted identity"
  | .attemptRevisionCas => "attempt revision CAS mismatch"
  | .noDispatchProofRequired => "unknown late recovery requires no-dispatch proof"
  | .noRows => "no rows in result set"
  | .scanNull => "cannot scan NULL"
  | .constraintViolation => "constraint violation"

/-- Go `int64` wrap-around. -/
def int64 (value : Int) : Int := value.bmod (2 ^ 64)

theorem int64_of_bigint {value : Int} (fits : bigint value = true) : int64 value = value := by
  have range := of_decide_eq_true fits
  unfold int64
  exact Int.bmod_eq_of_le (by omega) (by omega)

/-! ## Window budgets -/

def operationalControlBudgetProfile : String := "ouf.operational-control-budget.v1"

def operationalControlCapabilities : List String :=
  ["ouf.operations.summary", "ouf.operations.incidents", "ouf.ingestion.operations.summary",
    "ouf.ingestion.operations.incidents", "ouf.gateway.operations.summary",
    "ouf.gateway.operations.incidents"]

def isOperationalControlRead (capability operation : String) : Bool :=
  decide (operation = "READ") && operationalControlCapabilities.contains capability

def minute : Time := 60000000000

/-- The limits of an operational control window. -/
def operationalControlMaximum : Cost where
  toolCalls := 24
  resultBytes := 12 * 2 ^ 20
  distinctObjects := 2400

/-- The key of the operational control window of one manifest. -/
def operationalControlPolicy (manifestChecksum : String) : String :=
  manifestChecksum ++ ":" ++ operationalControlBudgetProfile

def admissionWindowBudget (req : AdmissionRequest) : Except StoreError (String × Cost) :=
  if req.budgetProfile = "" then
    .ok (req.manifestChecksum,
      { toolCalls := int64 (req.maximum.toolCalls * req.retryThreshold)
        resultBytes := int64 (req.maximum.resultBytes * req.retryThreshold)
        distinctObjects := int64 (req.maximum.distinctObjects * req.retryThreshold) })
  else if req.budgetProfile ≠ operationalControlBudgetProfile ∨
      isOperationalControlRead req.capabilityId req.operationClass = false ∨
      req.window ≠ minute ∨ req.retryThreshold ≠ 3 ∨ req.maximum.toolCalls ≠ 1 ∨
      req.maximum.resultBytes < 1 ∨ req.maximum.resultBytes > 512 * 2 ^ 10 ∨
      req.maximum.distinctObjects < 0 ∨ req.maximum.distinctObjects > 100 then
    .error .unsupportedOperationalControlBudget
  else .ok (operationalControlPolicy req.manifestChecksum, operationalControlMaximum)

/-! ## Reserve -/

def AdmissionRequest.claimKey (req : AdmissionRequest) : ClaimKey where
  servicePrincipalId := req.identity.servicePrincipalId
  principalId := req.identity.principalId
  tenantId := req.identity.tenantId
  owner := req.owner
  capabilityId := req.capabilityId
  operationClass := req.operationClass
  idempotencyKey := req.idempotencyKey

/-- Identifiers drawn during one admission. -/
structure Generated where
  windowId : UUID
  groupId : UUID
  attemptId : UUID
  deriving DecidableEq, Repr

namespace Database

def claimFor (db : Database) (key : ClaimKey) : Option (UUID × IdempotencyClaim) :=
  db.claims.toList.find? fun entry => decide (entry.2.key = key)

def windowFor (db : Database) (identity : Identity) (policyRef : String) (start : Time) :
    Option (UUID × BudgetWindow) :=
  db.windows.toList.find? fun entry =>
    decide (entry.2.servicePrincipalId = identity.servicePrincipalId ∧
      entry.2.principalId = identity.principalId ∧ entry.2.tenantId = identity.tenantId ∧
      entry.2.policyRef = policyRef ∧ entry.2.windowStart = start)

def groupFor (db : Database) (group : EquivalenceGroup) : Option UUID :=
  (db.groups.toList.find? fun entry => decide (entry.2 = group)).map (·.1)

end Database

/-- `timestamptz` keeps microseconds. -/
def timestamptz (instant : Time) : Time := instant - instant % 1000

def AdmissionRequest.newWindow (req : AdmissionRequest) (policyRef : String) (start : Time) :
    BudgetWindow where
  servicePrincipalId := req.identity.servicePrincipalId
  principalId := req.identity.principalId
  tenantId := req.identity.tenantId
  policyRef := policyRef
  windowStart := timestamptz start
  windowEnd := timestamptz (start + req.window)
  reservedToolCalls := 0
  consumedToolCalls := 0
  reservedResultBytes := 0
  consumedResultBytes := 0
  reservedDistinctObjects := 0
  consumedDistinctObjects := 0
  currentUnresolvedObjectDebtTotal := 0
  allowedObjectHashVersions := ["v1"]

def AdmissionRequest.newAttempt (req : AdmissionRequest) (now : Time) : ToolAttempt where
  servicePrincipalId := req.identity.servicePrincipalId
  principalId := req.identity.principalId
  tenantId := req.identity.tenantId
  capabilityId := req.capabilityId
  operationClass := req.operationClass
  manifestChecksum := req.manifestChecksum
  idempotencyKey := req.idempotencyKey
  requestHash := req.requestHash
  correlationId := req.correlationId
  state := .admitted
  dispatchState := .notDispatched
  backendRequestId := none
  admittedAt := now
  completedAt := none
  leaseUntil := none
  lockVersion := 0
  recoveryOwner := none
  recoveryLeaseUntil := none
  unknownSince := none
  outcomeCode := none
  resultRef := none
  outcomeRevision := 0

def AdmissionRequest.newClaim (req : AdmissionRequest) : IdempotencyClaim where
  key := req.claimKey
  requestHash := req.requestHash
  state := .bound
  lockVersion := 0

def AdmissionRequest.newReservation (req : AdmissionRequest) (window : UUID) :
    BudgetReservation where
  budgetWindowId := window
  reservedToolCalls := req.maximum.toolCalls
  reservedResultBytes := req.maximum.resultBytes
  reservedDistinctObjectsMax := req.maximum.distinctObjects
  state := .reserved
  actualToolCalls := none
  actualResultBytes := none
  actualDistinctObjects := none
  actualUnresolvedObjectDebtMax := 0

def BudgetWindow.reserve (window : BudgetWindow) (maximum : Cost) : BudgetWindow :=
  { window with
    reservedToolCalls := window.reservedToolCalls + maximum.toolCalls
    reservedResultBytes := window.reservedResultBytes + maximum.resultBytes
    reservedDistinctObjects := window.reservedDistinctObjects + maximum.distinctObjects }

/-- Whether the window has no room for the maximum, in Go arithmetic. -/
def BudgetWindow.exceeded (window : BudgetWindow) (objectDebt : Int) (maximum limit : Cost) :
    Bool :=
  decide (int64 (int64 (window.reservedToolCalls + window.consumedToolCalls) + maximum.toolCalls) >
      limit.toolCalls)
    || decide (int64 (int64 (window.reservedResultBytes + window.consumedResultBytes) +
      maximum.resultBytes) > limit.resultBytes)
    || (decide (maximum.distinctObjects > 0) &&
      decide (int64 (int64 (int64 (window.reservedDistinctObjects +
        window.consumedDistinctObjects) + objectDebt) + maximum.distinctObjects) >
          limit.distinctObjects))

namespace Store

/-- `insert into budget_window .. on conflict do update .. returning budget_window_id` -/
def upsertWindow (db : Database) (fresh : UUID) (req : AdmissionRequest) (policyRef : String)
    (start : Time) : Except StoreError (UUID × Database) :=
  match db.windowFor req.identity policyRef (timestamptz start) with
  | some (id, _) => .ok (id, db)
  | none => do
      let windows ← demand .constraintViolation
        (db.windows.insert? fresh (req.newWindow policyRef start))
      pure (fresh, { db with windows })

/-- `insert into retry_equivalence_group .. on conflict do update .. returning`
`equivalence_group_id` -/
def upsertGroup (db : Database) (fresh : UUID) (group : EquivalenceGroup) :
    Except StoreError (UUID × Database) :=
  match db.groupFor group with
  | some id => .ok (id, db)
  | none => do
      let groups ← demand .constraintViolation (db.groups.insert? fresh group)
      pure (fresh, { db with groups })

/-- `insert into retry_guard .. on conflict do update set equivalent_attempts = .. + 1` -/
def upsertGuard (db : Database) (group : UUID) : Except StoreError (RetryGuard × Database) := do
  let guard : RetryGuard := match db.guards.get group with
    | some existing => { existing with equivalentAttempts := existing.equivalentAttempts + 1 }
    | none => { equivalentAttempts := 1, blocked := false, blockingAttempts := 0 }
  let guards ← demand .constraintViolation (db.guards.put? group guard)
  pure (guard, { db with guards })

/-- The rows of one new attempt: the attempt, its claim, context and reservation,
and the reserved counters of the window. -/
def insertAttempt (db : Database) (now : Time) (id window group : UUID) (req : AdmissionRequest) :
    Except StoreError Database := do
  ensure (req.manifestChecksum ∈ db.manifestSnapshot) .constraintViolation
  let attempts ← demand .constraintViolation (db.attempts.insert? id (req.newAttempt now))
  let claims ← demand .constraintViolation (db.claims.insert? id req.newClaim)
  let contexts ← demand .constraintViolation (db.contexts.insert? id
    { budgetWindowId := window, equivalenceGroupId := group, owner := req.owner })
  let reservations ← demand .constraintViolation
    (db.reservations.insert? id (req.newReservation window))
  let windows ← db.windows.updateAny window (·.reserve req.maximum) .constraintViolation
  pure { db with
    attempts, claims, contexts, reservations, windows
    audit := db.audit ++ captureOperationalAttemptAudit id none (req.newAttempt now) }

/-- The attempt identifier an admission uses: the caller's, or a drawn one for `uuid.Nil`. -/
def AdmissionRequest.attemptIdOr (req : AdmissionRequest) (fresh : UUID) : UUID :=
  if req.attemptId = 0 then fresh else req.attemptId

/-- The branch of `reserveOnce` that finds no claim for the tuple. -/
def admitNew (db : Database) (now : Time) (fresh : Generated) (req : AdmissionRequest)
    (policyRef : String) (limit : Cost) : Except StoreError (AdmissionDecision × Database) := do
  let start := now - now % req.window
  let (windowId, db) ← upsertWindow db fresh.windowId req policyRef start
  let window ← demand .noRows (db.windows.get windowId)
  ensure (bigint (db.activeDebt windowId) = true) .constraintViolation
  ensure (window.exceeded (db.activeDebt windowId) req.maximum limit = false) .budgetExhausted
  let (groupId, db) ← upsertGroup db fresh.groupId
    { budgetWindowId := windowId, capabilityId := req.capabilityId
      fingerprintVersion := req.fingerprintVersion
      semanticFingerprint := req.semanticFingerprint }
  let (guard, db) ← upsertGuard db groupId
  ensure (guard.blockingAttempts ≤ 0) .groupLocked
  -- The source marks the guard as blocked before it reports the stall; the rollback
  -- deferred at the start of the transaction takes the mark back.
  ensure (guard.blocked = false ∧ guard.equivalentAttempts < req.retryThreshold) .toolSelectionStall
  let id := AdmissionRequest.attemptIdOr req fresh.attemptId
  let db ← insertAttempt db now id windowId groupId req
  pure ({ attemptId := id, lockVersion := 0, replay := false }, db)

/-- The branch of `reserveOnce` that finds a claim for the tuple. -/
def replayClaim (db : Database) (req : AdmissionRequest) (id : UUID) (claim : IdempotencyClaim) :
    Except StoreError (AdmissionDecision × Database) := do
  ensure (claim.requestHash = req.requestHash) .idempotencyConflict
  let attempt ← demand .noRows (db.attempts.get id)
  ensure (attempt.state.uncertain = false) .idempotencyOutcomeUnknown
  pure ({ attemptId := id, lockVersion := 0, replay := true }, db)

def admissionPolicy (req : AdmissionRequest) : Except StoreError (String × Cost) := do
  ensure (¬ (req.window ≤ 0 ∨ req.retryThreshold < 1 ∨ req.maximum.toolCalls < 1))
    .invalidAdmissionPolicy
  admissionWindowBudget req

def reserveOnce (db : Database) (now : Time) (fresh : Generated) (req : AdmissionRequest) :
    Except StoreError (AdmissionDecision × Database) := do
  let (policyRef, limit) ← admissionPolicy req
  match db.claimFor req.claimKey with
  | some (id, claim) => replayClaim db req id claim
  | none => admitNew db now fresh req policyRef limit

end Store

end OufMcp.Ledger
