import OufMcp.Ledger.Recovery
import Mathlib.Data.List.Dedup

/-!
# Owner evidence and late compensation

`InsertVerifiedEvidence`, which stores one piece of owner evidence per backend
request, and `LateCompensate`, which spends it.  The preliminary read of
`LateCompensate` takes no lock, so it sees a database of its own.
-/

namespace OufMcp.Ledger

open Relational

/-- `evidence.Verified`; a nil slice of object hashes is sent as SQL `NULL`. -/
structure Verified where
  evidenceRef : UUID
  backendOwner : String
  backendRequestId : String
  kind : String
  terminalState : String
  outcomeCode : String
  resultRef : String
  actualDistinctObjects : Int
  objectHashes : Option (List String)
  payloadHash : String
  deriving DecidableEq, Repr

structure IngressResult where
  evidenceRef : UUID
  replay : Bool
  deriving DecidableEq, Repr

inductive Disposition where
  | idempotentReplay
  | domainViolationReplay
  | rejectedScope
  | rejectedBinding
  | committedDomainViolation
  | compensated
  deriving DecidableEq, Repr

def Disposition.concludes : Disposition → Bool
  | .committedDomainViolation | .compensated => true
  | .idempotentReplay | .domainViolationReplay | .rejectedScope | .rejectedBinding => false

structure CompensationResult where
  disposition : Disposition
  attemptState : AttemptState
  outcomeCode : String
  outcomeRevision : Int
  deriving DecidableEq, Repr

/-- The two ways `LateCompensate` finds authoritative evidence in violation. -/
inductive Violation where
  | crypto
  | contract
  deriving DecidableEq, Repr

def Violation.category : Violation → IncidentCategory
  | .crypto => .cryptoViolation
  | .contract => .contractViolation

def Violation.code : Violation → String
  | .crypto => "CRYPTO_VIOLATION"
  | .contract => "CONTRACT_VIOLATION"

/-- `strings.ToLower` of a category, as incident keys carry it. -/
def IncidentCategory.lower : IncidentCategory → String
  | .evidenceScopeViolation => "evidence_scope_violation"
  | .evidenceBindingViolation => "evidence_binding_violation"
  | .contractViolation => "contract_violation"
  | .cryptoViolation => "crypto_violation"

/-- `uuid.UUID.String` -/
def uuidString (id : UUID) : String :=
  let digit (position : Nat) : Char := Nat.digitChar (id.toNat / 16 ^ (31 - position) % 16)
  let span (start length : Nat) : List Char := (List.range length).map fun i => digit (start + i)
  String.ofList (span 0 8 ++ '-' :: span 8 4 ++ '-' :: span 12 4 ++ '-' :: span 16 4 ++
    '-' :: span 20 12)

/-- What `LateCompensate` holds against a piece of evidence, if anything. -/
def InboxEvidence.violation (evidence : InboxEvidence) (allowedVersions : List String)
    (debt : Int) : Option Violation :=
  if evidence.objectHashes.any fun hash =>
      !objectHashPattern hash || !allowedVersions.contains (hashKeyVersion hash) then
    some .crypto
  else if (evidence.objectHashes.dedup.length : Int) ≠ evidence.actualDistinctObjects ∨
      evidence.actualDistinctObjects > debt ∨
      (evidence.evidenceKind = .ownerProvesNoDispatch ∧
        (evidence.actualDistinctObjects ≠ 0 ∨ evidence.objectHashes ≠ [])) then
    some .contract
  else none

/-- The attempt update that both outcomes of `LateCompensate` write. -/
def ToolAttempt.conclude (attempt : ToolAttempt) (stamp : Time) (state : AttemptState)
    (dispatchState : DispatchState) (code : String) (resultRef : Option String) : ToolAttempt :=
  { attempt with
    state, dispatchState
    outcomeCode := some code
    resultRef := nullifEmpty (resultRef.getD "")
    completedAt := some (attempt.completedAt.getD stamp)
    outcomeRevision := attempt.outcomeRevision + 1
    lockVersion := attempt.lockVersion + 1 }

def BudgetReservation.releaseProven (reservation : BudgetReservation) : BudgetReservation :=
  { reservation with
    state := .released
    actualToolCalls := some 0
    actualResultBytes := some 0
    actualDistinctObjects := some 0 }

def ObjectDebt.resolve (debt : ObjectDebt) (ref : UUID) (stamp : Time) : ObjectDebt :=
  { debt with debtState := .resolved, ownerEvidenceRef := some ref, resolvedAt := some stamp }

/-- Replace unresolved debt by the objects that were really new. -/
def BudgetWindow.compensate (window : BudgetWindow) (inserted debt : Int) : BudgetWindow :=
  { window with
    consumedDistinctObjects := window.consumedDistinctObjects + inserted
    currentUnresolvedObjectDebtTotal := window.currentUnresolvedObjectDebtTotal - debt }

namespace Store

/-! ## Ingress -/

/-- The attempt an owner's backend request belongs to, with its context. -/
def attemptFor (db : Database) (backendRequestId owner : String) :
    Option (UUID × AdmissionContext) :=
  (db.attempts.toList.filterMap fun entry =>
      (db.contexts.get entry.1).bind fun context =>
        if entry.2.backendRequestId = some backendRequestId ∧ context.owner = owner then
          some (entry.1, context)
        else none).head?

def insertVerifiedEvidence (db : Database) (input : Verified) :
    Except StoreError (IngressResult × Database) :=
  match db.evidence.toList.find? fun entry =>
      decide (entry.2.backendOwner = input.backendOwner ∧
        entry.2.backendRequestId = input.backendRequestId) with
  | some (existingRef, existing) => do
      ensure (existing.evidencePayloadHash = input.payloadHash) .ingressConflict
      pure ({ evidenceRef := existingRef, replay := true }, db)
  | none => do
      let (id, context) ← demand .ownerMismatch
        (attemptFor db input.backendRequestId input.backendOwner)
      let kind ← demand .constraintViolation (EvidenceKind.ofString? input.kind)
      let terminal ← demand .constraintViolation (TerminalState.ofString? input.terminalState)
      let hashes ← demand .constraintViolation input.objectHashes
      let evidence ← demand .constraintViolation (db.evidence.insert? input.evidenceRef
        { attemptId := id, budgetWindowId := context.budgetWindowId
          backendOwner := input.backendOwner, backendRequestId := input.backendRequestId
          evidenceKind := kind, terminalState := terminal
          terminalOutcomeCode := input.outcomeCode, resultRef := nullifEmpty input.resultRef
          actualDistinctObjects := input.actualDistinctObjects, objectHashes := hashes
          evidencePayloadHash := input.payloadHash, evidenceState := .verified
          consumedAt := none })
      pure ({ evidenceRef := input.evidenceRef, replay := false }, { db with evidence })

/-! ## Late compensation -/

/-- `insert into security_incident .. on conflict do nothing`, with its audit trigger. -/
def insertIncident (db : Database) (key : String) (incident : SecurityIncident) :
    Except StoreError Database :=
  match db.incidents.get key with
  | some _ => .ok db
  | none => do
      let incidents ← demand .constraintViolation (db.incidents.insert? key incident)
      pure { db with
        incidents
        audit := db.audit ++
          [captureOperationalSecurityAudit incident (db.attempts.get incident.attemptId)] }

def quarantineEvidence (db : Database) (stamp : Time) (id ref : UUID) (payloadHash : String)
    (category : IncidentCategory) (detail : String) : Except StoreError Database := do
  let evidence ← db.evidence.updateOne ref (fun e => e.evidenceState = .verified)
    (fun e => { e with evidenceState := .quarantined, consumedAt := some stamp })
    .constraintViolation .recoveryRowCount
  insertIncident { db with evidence } (uuidString ref ++ ":" ++ category.lower)
    { attemptId := id, evidenceRef := ref, category, detailCode := detail
      evidencePayloadHash := payloadHash }

/-- `insert into budget_distinct_object .. on conflict do nothing`, counting the rows inserted. -/
def insertObject (window : UUID) (state : Int × Table DistinctObject budgetDistinctObject)
    (hash : String) : Except StoreError (Int × Table DistinctObject budgetDistinctObject) :=
  let row : DistinctObject :=
    { budgetWindowId := window, objectHashKeyVersion := hashKeyVersion hash, objectIdHash := hash }
  match state.2.get row with
  | some _ => .ok state
  | none => do
      let objects ← demand .constraintViolation (state.2.insert? row row)
      pure (state.1 + 1, objects)

/-- The compare-and-set on the outcome revision that ends `LateCompensate`. -/
def concludeAttempt (db : Database) (stamp : Time) (id : UUID) (expectedRevision : Int)
    (state : AttemptState) (dispatchState : DispatchState) (code : String)
    (resultRef : Option String) : Except StoreError Database :=
  updateAttemptOne db id
    (fun r => (r.outcomeRevision : Int) = expectedRevision ∧ r.state.uncertain = true)
    (·.conclude stamp state dispatchState code resultRef)

/-- The branch for authoritative evidence in violation. -/
def commitViolation (db : Database) (stamp : Time) (id ref : UUID) (evidence : InboxEvidence)
    (expectedRevision : Int) (violation : Violation) :
    Except StoreError (CompensationResult × Database) := do
  let db ← concludeAttempt db stamp id expectedRevision .failed .acknowledged violation.code
    evidence.resultRef
  let db ← quarantineEvidence db stamp id ref evidence.evidencePayloadHash violation.category
    "AUTHORITATIVE_EVIDENCE_REJECTED"
  pure ({ disposition := .committedDomainViolation, attemptState := .failed
          outcomeCode := violation.code, outcomeRevision := expectedRevision + 1 }, db)

/-- Release of the reservation and claim of an attempt that is still `UNKNOWN`. -/
def releaseUncertain (db : Database) (id window : UUID) (reservation : BudgetReservation)
    (kind : EvidenceKind) : Except StoreError Database := do
  ensure (kind = .ownerProvesNoDispatch ∧ reservation.state = .unknown) .noDispatchProofRequired
  let windows ← db.windows.updateOne window (fun _ => True)
    (·.release reservation.reservedToolCalls reservation.reservedResultBytes 0)
    .constraintViolation .recoveryRowCount
  let reservations ← db.reservations.updateOne id (fun r => r.state = .unknown)
    (·.releaseProven) .constraintViolation .recoveryRowCount
  let claims ← db.claims.updateOne id (fun c => c.state = .unknown) (·.complete)
    .constraintViolation .recoveryRowCount
  pure { db with windows, reservations, claims }

def releaseUnknown (db : Database) (id window : UUID) (attempt : ToolAttempt)
    (reservation : BudgetReservation) (kind : EvidenceKind) : Except StoreError Database :=
  if attempt.state = .unknown then releaseUncertain db id window reservation kind else pure db

def compensate (db : Database) (stamp : Time) (id ref : UUID) (context : AdmissionContext)
    (attempt : ToolAttempt) (reservation : BudgetReservation) (debt : Int)
    (evidence : InboxEvidence) (expectedRevision : Int) :
    Except StoreError (CompensationResult × Database) := do
  let window := context.budgetWindowId
  let (inserted, objects) ← evidence.objectHashes.dedup.foldlM (insertObject window)
    (0, db.objects)
  let debts ← db.debts.updateOne id
    (fun d => d.budgetWindowId = window ∧ d.debtState = .active)
    (·.resolve ref stamp) .constraintViolation .recoveryRowCount
  let windows ← db.windows.updateOne window
    (fun w => w.currentUnresolvedObjectDebtTotal ≥ debt)
    (·.compensate inserted debt) .constraintViolation .recoveryRowCount
  let guards ← db.guards.updateOne context.equivalenceGroupId (fun g => g.blockingAttempts > 0)
    (·.unblock) .constraintViolation .recoveryRowCount
  let db := { db with objects, debts, windows, guards }
  let db ← releaseUnknown db id window attempt reservation evidence.evidenceKind
  let adjustments ← demand .constraintViolation
    (db.adjustments.insert? evidence.evidencePayloadHash
      { budgetWindowId := window, attemptId := id, ownerEvidenceRef := ref
        priorOutcomeRevision := expectedRevision, newOutcomeRevision := expectedRevision + 1
        distinctObjectDelta := inserted, unresolvedDebtDelta := -debt })
  let db ← concludeAttempt { db with adjustments } stamp id expectedRevision
    evidence.terminalState.attemptState
    (if evidence.evidenceKind = .ownerProvesNoDispatch then .notDispatched else .acknowledged)
    evidence.terminalOutcomeCode evidence.resultRef
  let inbox ← db.evidence.updateOne ref (fun e => e.evidenceState = .verified)
    (fun e => { e with evidenceState := .consumed, consumedAt := some stamp })
    .constraintViolation .recoveryRowCount
  pure ({ disposition := .compensated, attemptState := evidence.terminalState.attemptState
          outcomeCode := evidence.terminalOutcomeCode
          outcomeRevision := expectedRevision + 1 }, { db with evidence := inbox })

def report (disposition : Disposition) (attempt : ToolAttempt) : CompensationResult where
  disposition := disposition
  attemptState := attempt.state
  outcomeCode := attempt.outcomeCode.getD ""
  outcomeRevision := attempt.outcomeRevision

def lateCompensateLocked (db : Database) (stamp : Time) (id ref : UUID) (expectedRevision : Int) :
    Except StoreError (CompensationResult × Database) := do
  let context ← demand .noRows (db.contexts.get id)
  let window ← demand .noRows (db.windows.get context.budgetWindowId)
  let attempt ← demand .noRows (db.attempts.get id)
  let backendRequestId ← demand .scanNull attempt.backendRequestId
  ensure ((attempt.outcomeRevision : Int) = expectedRevision ∧ attempt.state.uncertain = true)
    .attemptRevisionCas
  let reservation ← demand .noRows (db.reservations.get id)
  let debt ← demand .noRows (db.debts.get id)
  ensure (debt.budgetWindowId = context.budgetWindowId ∧ debt.debtState = .active) .noRows
  let evidence ← demand .noRows (db.evidence.get ref)
  if evidence.evidenceState = .consumed then pure (report .idempotentReplay attempt, db)
  else if evidence.evidenceState = .quarantined then
    pure (report .domainViolationReplay attempt, db)
  else if evidence.attemptId ≠ id then do
    let db ← insertIncident db (uuidString ref ++ ":scope")
      { attemptId := evidence.attemptId, evidenceRef := ref, category := .evidenceScopeViolation
        detailCode := "CALLER_ATTEMPT_MISMATCH"
        evidencePayloadHash := evidence.evidencePayloadHash }
    pure (report .rejectedScope attempt, db)
  else if evidence.budgetWindowId ≠ context.budgetWindowId ∨
      evidence.backendOwner ≠ context.owner ∨ evidence.backendRequestId ≠ backendRequestId then do
    let db ← quarantineEvidence db stamp id ref evidence.evidencePayloadHash
      .evidenceBindingViolation "OWNER_OR_REQUEST_BINDING_MISMATCH"
    pure (report .rejectedBinding attempt, db)
  else match evidence.violation window.allowedObjectHashVersions debt.debtAmount with
    | some violation => commitViolation db stamp id ref evidence expectedRevision violation
    | none =>
      compensate db stamp id ref context attempt reservation debt.debtAmount evidence
        expectedRevision

/-- `Store.LateCompensate`; the preliminary read saw `seen`. -/
def lateCompensate (seen db : Database) (stamp : Time) (id ref : UUID) (expectedRevision : Int) :
    Except StoreError (CompensationResult × Database) := do
  let preliminary ← demand .noRows (seen.evidence.get ref)
  if preliminary.attemptId = id ∧ preliminary.evidenceState ≠ .verified then do
    let attempt ← demand .noRows (db.attempts.get id)
    pure (report (if preliminary.evidenceState = .quarantined then .domainViolationReplay
      else .idempotentReplay) attempt, db)
  else lateCompensateLocked db stamp id ref expectedRevision

end Store

end OufMcp.Ledger
