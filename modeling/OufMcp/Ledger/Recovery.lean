import OufMcp.Ledger.Dispatch
import Mathlib.Data.List.Sort

/-!
# Recovery workers

`MarkStaleAndClaim`, `ApplyOwnerEvidence` and `ExpireUnknown`.  These
transactions run at read committed and choose their candidates with a query that
takes no lock, so the rows a query returned are computed from the database it
saw, while the writes go to the database of the commit.
-/

namespace OufMcp.Ledger

open Relational

/-! ## Candidate queries -/

/-- `order by instant nulls last, id` -/
def precedes (a b : Option Time × UUID) : Bool :=
  match a.1, b.1 with
  | some s, some t => decide (s < t) || (decide (s = t) && decide (a.2.toNat ≤ b.2.toNat))
  | some _, none => true
  | none, some _ => false
  | none, none => decide (a.2.toNat ≤ b.2.toNat)

/-- `order by .. limit ..` -/
def firstBy {α : Type} (rank : α → Option Time × UUID) (limit : Nat) (rows : List α) : List α :=
  (rows.insertionSort fun a b => precedes (rank a) (rank b) = true).take limit

theorem mem_of_mem_firstBy {α : Type} {rank : α → Option Time × UUID} {limit : Nat}
    {rows : List α} {row : α} (member : row ∈ firstBy rank limit rows) : row ∈ rows := by
  unfold firstBy at member
  exact (List.mem_insertionSort _).mp (List.mem_of_mem_take member)

theorem nodup_firstBy {α β : Type} {rank : α → Option Time × UUID} {limit : Nat} {rows : List α}
    {key : α → β} (distinct : (rows.map key).Nodup) :
    ((firstBy rank limit rows).map key).Nodup := by
  unfold firstBy
  refine (List.Sublist.map key (List.take_sublist _ _)).nodup ?_
  exact ((List.perm_insertionSort _ _).map key).nodup_iff.mpr distinct

/-- The window update that turns reserved objects into unresolved debt. -/
def BudgetWindow.moveToDebt (window : BudgetWindow) (objects : Int) : BudgetWindow :=
  { window with
    reservedDistinctObjects := window.reservedDistinctObjects - objects
    currentUnresolvedObjectDebtTotal := window.currentUnresolvedObjectDebtTotal + objects }

/-- An admission that no dispatch followed. -/
structure ExpiredAdmission where
  id : UUID
  window : UUID
  group : UUID
  calls : Int
  bytes : Int
  objects : Int
  service : String
  manifest : String
  admittedAt : Time
  deriving DecidableEq, Repr

/-- A dispatch whose lease ran out. -/
structure StaleDispatch where
  id : UUID
  window : UUID
  group : UUID
  objects : Int
  leaseUntil : Option Time
  deriving DecidableEq, Repr

/-- An uncertain attempt whose hold ran out. -/
structure ExpiryCandidate where
  attempt : UUID
  window : UUID
  group : UUID
  unknownSince : Option Time
  deriving DecidableEq, Repr

/-- `recovery.Candidate` -/
structure Candidate where
  attemptId : UUID
  backendRequestId : String
  owner : String
  capabilityId : String
  correlationId : String
  deriving DecidableEq, Repr

/-- The outcomes an owner may report; `RunOnce` refuses any other text. -/
inductive OwnerOutcome where
  | succeeded
  | failed
  | notDispatched
  | unknown
  deriving DecidableEq, Repr

/-- `recovery.OwnerEvidence` -/
structure OwnerEvidence where
  backendRequestId : String
  outcome : OwnerOutcome
  outcomeCode : String
  resultRef : String
  actualToolCalls : Int
  actualResultBytes : Int
  deriving DecidableEq, Repr

/-- `nullif(text, '')` -/
def nullifEmpty (text : String) : Option String := if text = "" then none else some text

/-- Move a reservation's calls and bytes from reserved to consumed, object counters untouched. -/
def BudgetWindow.recover (window : BudgetWindow) (calls bytes consumeCalls consumeBytes : Int) :
    BudgetWindow :=
  { window with
    reservedToolCalls := window.reservedToolCalls - calls
    reservedResultBytes := window.reservedResultBytes - bytes
    consumedToolCalls := window.consumedToolCalls + consumeCalls
    consumedResultBytes := window.consumedResultBytes + consumeBytes }

/-- The attempt update of an admission that no dispatch followed. -/
def ToolAttempt.failUndispatched (attempt : ToolAttempt) (stamp : Time) : ToolAttempt :=
  { attempt with
    state := .failed
    dispatchState := .notDispatched
    outcomeCode := some "DISPATCH_NOT_STARTED"
    completedAt := some stamp
    lockVersion := attempt.lockVersion + 1 }

def ToolAttempt.hold (attempt : ToolAttempt) (worker : String) (leaseUntil : Time) : ToolAttempt :=
  { attempt with recoveryOwner := some worker, recoveryLeaseUntil := some leaseUntil }

def ToolAttempt.letGo (attempt : ToolAttempt) : ToolAttempt :=
  { attempt with recoveryOwner := none, recoveryLeaseUntil := none }

def ToolAttempt.recover (attempt : ToolAttempt) (evidence : OwnerEvidence) (stamp : Time) :
    ToolAttempt :=
  { attempt with
    state := if evidence.outcome = .succeeded then .succeeded else .failed
    dispatchState := if evidence.outcome = .notDispatched then .notDispatched else .acknowledged
    outcomeCode := some evidence.outcomeCode
    resultRef := nullifEmpty evidence.resultRef
    completedAt := some stamp
    recoveryOwner := none
    recoveryLeaseUntil := none
    lockVersion := attempt.lockVersion + 1 }

def ToolAttempt.expire (attempt : ToolAttempt) (now : Time) : ToolAttempt :=
  { attempt with
    state := .unresolved
    outcomeCode := some "MAX_UNKNOWN_HOLD"
    completedAt := some now
    recoveryOwner := none
    recoveryLeaseUntil := none
    lockVersion := attempt.lockVersion + 1 }

def BudgetReservation.releaseUnsent (reservation : BudgetReservation) : BudgetReservation :=
  { reservation with
    state := .released, actualToolCalls := some 0, actualResultBytes := some 0 }

def BudgetReservation.lose (reservation : BudgetReservation) (objects : Int) : BudgetReservation :=
  { reservation with state := .unknown, actualUnresolvedObjectDebtMax := objects }

/-- The calls and bytes an owner outcome consumes: none when nothing was dispatched. -/
def OwnerEvidence.consumeCalls (evidence : OwnerEvidence) : Int :=
  if evidence.outcome = .notDispatched then 0 else evidence.actualToolCalls

def OwnerEvidence.consumeBytes (evidence : OwnerEvidence) : Int :=
  if evidence.outcome = .notDispatched then 0 else evidence.actualResultBytes

def BudgetReservation.recover (reservation : BudgetReservation) (evidence : OwnerEvidence) :
    BudgetReservation :=
  { reservation with
    state := if evidence.outcome = .notDispatched then .released else .reconciled
    actualToolCalls := some evidence.consumeCalls
    actualResultBytes := some evidence.consumeBytes
    actualDistinctObjects := some 0 }

def BudgetReservation.expire (reservation : BudgetReservation) : BudgetReservation :=
  { reservation with
    state := .reconciled
    actualToolCalls := some reservation.reservedToolCalls
    actualResultBytes := some reservation.reservedResultBytes
    actualDistinctObjects := some 0 }

def IdempotencyClaim.lose (claim : IdempotencyClaim) : IdempotencyClaim :=
  { claim with state := .unknown, lockVersion := claim.lockVersion + 1 }

def RetryGuard.block (guard : RetryGuard) : RetryGuard :=
  { guard with blockingAttempts := guard.blockingAttempts + 1 }

def ObjectDebt.opened (window : UUID) (objects : Int) : ObjectDebt where
  budgetWindowId := window
  debtAmount := objects
  debtState := .active
  ownerEvidenceRef := none
  resolvedAt := none

def RetryGuard.unblock (guard : RetryGuard) : RetryGuard :=
  { guard with blockingAttempts := guard.blockingAttempts - 1 }

def IdempotencyClaim.complete (claim : IdempotencyClaim) : IdempotencyClaim :=
  { claim with state := .completed, lockVersion := claim.lockVersion + 1 }

namespace Store

def selectExpiredAdmissions (seen : Database) (admittedBefore : Time) (limit : Nat) :
    List ExpiredAdmission :=
  firstBy (fun row => (some row.admittedAt, row.id)) limit
    ((seen.attempts.select fun _ attempt =>
        decide (attempt.state = .admitted) && decide (attempt.dispatchState = .notDispatched)
          && decide (attempt.admittedAt < admittedBefore)).filterMap fun entry =>
      match seen.contexts.get entry.1, seen.reservations.get entry.1 with
      | some context, some reservation =>
        some { id := entry.1
               window := context.budgetWindowId
               group := context.equivalenceGroupId
               calls := reservation.reservedToolCalls
               bytes := reservation.reservedResultBytes
               objects := reservation.reservedDistinctObjectsMax
               service := entry.2.servicePrincipalId
               manifest := entry.2.manifestChecksum
               admittedAt := entry.2.admittedAt }
      | _, _ => none)

def selectStaleDispatches (seen : Database) (now : Time) (limit : Nat) : List StaleDispatch :=
  firstBy (fun row => (row.leaseUntil, row.id)) limit
    ((seen.attempts.select fun _ attempt =>
        decide (attempt.state = .running) && decide (attempt.dispatchState = .dispatched)
          && attempt.leaseUntil.any (· < now)).filterMap fun entry =>
      match seen.contexts.get entry.1, seen.reservations.get entry.1 with
      | some context, some reservation =>
        some { id := entry.1
               window := context.budgetWindowId
               group := context.equivalenceGroupId
               objects := reservation.reservedDistinctObjectsMax
               leaseUntil := entry.2.leaseUntil }
      | _, _ => none)

def selectExpiredUnknown (seen : Database) (now unknownBefore : Time) (limit : Nat) :
    List ExpiryCandidate :=
  firstBy (fun row => (row.unknownSince, row.attempt)) limit
    ((seen.attempts.select fun _ attempt =>
        decide (attempt.state = .unknown) && attempt.unknownSince.any (· < unknownBefore)
          && attempt.recoveryLeaseUntil.all (· < now)).filterMap fun entry =>
      (seen.contexts.get entry.1).map fun context =>
        { attempt := entry.1
          window := context.budgetWindowId
          group := context.equivalenceGroupId
          unknownSince := entry.2.unknownSince })

/-! ## Stale admissions -/

def expireAdmission (stamp : Time) (db : Database) (row : ExpiredAdmission) :
    Except StoreError Database := do
  let attempt ← demand .noRows (db.attempts.get row.id)
  if attempt.state ≠ .admitted then pure db
  else do
    let windows ← db.windows.updateAny row.window (·.release row.calls row.bytes row.objects)
      .constraintViolation
    let db ← updateAttemptOne { db with windows } row.id
      (fun attempt => attempt.state = .admitted ∧ attempt.dispatchState = .notDispatched)
      (·.failUndispatched stamp)
    let reservations ← db.reservations.updateOne row.id (fun r => r.state = .reserved)
      (·.releaseUnsent) .constraintViolation .recoveryRowCount
    let claims ← db.claims.updateOne row.id (fun c => c.state = .bound)
      (·.complete)
      .constraintViolation .recoveryRowCount
    pure { db with
      reservations, claims
      audit := db.audit ++ [{
        eventType := "DISPATCH_NOT_STARTED", actorType := "MAINTENANCE_WORKER"
        servicePrincipalId := some row.service, attemptId := some row.id
        manifestChecksum := some row.manifest, safeDetail := .empty }] }

/-! ## Stale dispatches -/

/-- The debt row of a lost dispatch, written only when objects were reserved. -/
def openDebt (db : Database) (id window : UUID) (objects : Int) :
    Except StoreError (Table UUID budgetObjectDebt) :=
  if objects > 0 then demand .constraintViolation (db.debts.insert? id (.opened window objects))
  else pure db.debts

def markUnknown (now : Time) (db : Database) (row : StaleDispatch) :
    Except StoreError Database := do
  let attempt ← demand .noRows (db.attempts.get row.id)
  if attempt.state ≠ .running ∨ attempt.leaseUntil.any (· < now) = false then pure db
  else do
    let db ← updateAttemptOne db row.id (fun attempt => attempt.state = .running) (·.lose now)
    let guards ← db.guards.updateOne row.group (fun _ => True)
      (·.block) .constraintViolation .recoveryRowCount
    let windows ← db.windows.updateAny row.window (·.moveToDebt row.objects) .constraintViolation
    let debts ← openDebt db row.id row.window row.objects
    let reservations ← db.reservations.updateOne row.id (fun r => r.state = .reserved)
      (·.lose row.objects) .constraintViolation .recoveryRowCount
    let claims ← db.claims.updateOne row.id (fun c => c.state = .bound)
      (·.lose) .constraintViolation .recoveryRowCount
    pure { db with guards, windows, debts, reservations, claims }

/-! ## Claims of uncertain attempts -/

/-- `for update of ta skip locked`: rows another transaction holds are in `locked`. -/
def selectUnknown (db : Database) (now : Time) (locked : List UUID) (limit : Nat) :
    List (UUID × ToolAttempt × AdmissionContext) :=
  firstBy (fun row => (row.2.1.unknownSince, row.1)) limit
    ((db.attempts.select fun id attempt =>
        decide (attempt.state = .unknown) && attempt.recoveryLeaseUntil.all (· < now)
          && !locked.contains id).filterMap fun entry =>
      (db.contexts.get entry.1).map fun context => (entry.1, entry.2, context))

def candidate (row : UUID × ToolAttempt × AdmissionContext) : Except StoreError Candidate := do
  let backendRequestId ← demand .scanNull row.2.1.backendRequestId
  pure { attemptId := row.1, backendRequestId, owner := row.2.2.owner
         capabilityId := row.2.1.capabilityId, correlationId := row.2.1.correlationId }

def claimCandidate (worker : String) (leaseUntil : Time) (db : Database) (row : Candidate) :
    Except StoreError Database := do
  let attempt ← demand .recoveryClaimCas (db.attempts.get row.attemptId)
  ensure (attempt.state = .unknown) .recoveryClaimCas
  writeAttempt db row.attemptId attempt (attempt.hold worker leaseUntil)

/-- `Store.MarkStaleAndClaim`.  The first two queries saw `admissions` and `dispatches`;
the first loop's own writes are in neither selected state, so they do not change what
the second query returns. -/
def markStaleAndClaim (admissions dispatches db : Database) (stamp now admittedBefore : Time)
    (worker : String) (lease : Time) (limit : Nat) (locked : List UUID) :
    Except StoreError (List Candidate × Database) := do
  let db ← (selectExpiredAdmissions admissions admittedBefore limit).foldlM
    (expireAdmission stamp) db
  let db ← (selectStaleDispatches dispatches now limit).foldlM (markUnknown now) db
  let out ← (selectUnknown db now locked limit).mapM candidate
  let db ← out.foldlM (claimCandidate worker (now + lease)) db
  pure (out, db)

/-! ## Owner outcomes -/

/-- The writes of `ApplyOwnerEvidence` for a decided outcome. -/
def applyOwnerOutcome (db : Database) (stamp : Time) (id : UUID) (context : AdmissionContext)
    (reservation : BudgetReservation) (worker : String) (evidence : OwnerEvidence) :
    Except StoreError Database := do
  let windows ← db.windows.updateAny context.budgetWindowId
    (·.recover reservation.reservedToolCalls reservation.reservedResultBytes
      evidence.consumeCalls evidence.consumeBytes) .constraintViolation
  let guards ← db.guards.updateOne context.equivalenceGroupId (fun g => g.blockingAttempts > 0)
    (·.unblock) .constraintViolation .recoveryRowCount
  let db ← updateAttemptOne { db with windows, guards } id
    (fun r => r.recoveryOwner = some worker ∧ r.state = .unknown)
    (·.recover evidence stamp)
  let reservations ← db.reservations.updateOne id (fun r => r.state = .unknown)
    (·.recover evidence) .constraintViolation .recoveryRowCount
  let claims ← db.claims.updateOne id (fun c => c.state = .unknown) (·.complete)
    .constraintViolation .recoveryRowCount
  pure { db with reservations, claims }

def applyOwnerEvidence (db : Database) (stamp : Time) (id : UUID) (worker : String)
    (evidence : OwnerEvidence) : Except StoreError Database := do
  let context ← demand .noRows (db.contexts.get id)
  let attempt ← demand .noRows (db.attempts.get id)
  let backendRequestId ← demand .scanNull attempt.backendRequestId
  if attempt.state ≠ .unknown then pure db
  else do
    ensure (attempt.recoveryOwner.getD "" = worker ∧
      backendRequestId = evidence.backendRequestId) .invalidOwnerEvidence
    if evidence.outcome = .unknown then
      updateAttemptOne db id (fun r => r.recoveryOwner = some worker ∧ r.state = .unknown)
        (·.letGo)
    else do
      let reservation ← demand .noRows (db.reservations.get id)
      ensure (reservation.state = .unknown) .reservationNotUnknown
      ensure (¬ (evidence.actualToolCalls < 0 ∨ evidence.actualResultBytes < 0 ∨
        evidence.actualToolCalls > reservation.reservedToolCalls ∨
        evidence.actualResultBytes > reservation.reservedResultBytes)) .ownerCostExceedsReservation
      ensure (¬ reservation.reservedDistinctObjectsMax > 0) .objectEvidenceRequired
      applyOwnerOutcome db stamp id context reservation worker evidence

/-! ## Expiry of the uncertainty hold -/

def expireOne (now : Time) (db : Database) (row : ExpiryCandidate) :
    Except StoreError Database := do
  let attempt ← demand .noRows (db.attempts.get row.attempt)
  if attempt.state ≠ .unknown then pure db
  else do
    let reservation ← demand .noRows (db.reservations.get row.attempt)
    ensure (reservation.state = .unknown) .unresolvedReservationMismatch
    let windows ← db.windows.updateAny row.window
      (·.recover reservation.reservedToolCalls reservation.reservedResultBytes
        reservation.reservedToolCalls reservation.reservedResultBytes) .constraintViolation
    let reservations ← db.reservations.updateOne row.attempt (fun r => r.state = .unknown)
      (·.expire) .constraintViolation .recoveryRowCount
    let claims ← db.claims.updateOne row.attempt (fun c => c.state = .unknown) (·.complete)
      .constraintViolation .recoveryRowCount
    updateAttemptOne { db with windows, reservations, claims } row.attempt
      (fun r => r.state = .unknown) (·.expire now)

/-- `Store.ExpireUnknown`; the candidate query saw `seen`. -/
def expireUnknown (seen db : Database) (now unknownBefore : Time) (limit : Nat) :
    Except StoreError Database :=
  (selectExpiredUnknown seen now unknownBefore limit).foldlM (expireOne now) db

end Store

end OufMcp.Ledger
