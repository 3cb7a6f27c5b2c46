import OufMcp.Ledger.Admission

/-!
# Dispatch and settlement

The compare-and-set dispatch, `Store.Reconcile`, and the maintenance pass over
attempts that have no admission context.  Every write to `tool_attempt` goes
through one function that fires the audit trigger.
-/

namespace OufMcp.Ledger

open Relational

structure AttemptOutcome where
  code : String
  success : Bool
  backendRequestId : String
  deriving DecidableEq, Repr

/-- Return a reservation's calls, bytes and objects to the window. -/
def BudgetWindow.release (window : BudgetWindow) (calls bytes objects : Int) : BudgetWindow :=
  { window with
    reservedToolCalls := window.reservedToolCalls - calls
    reservedResultBytes := window.reservedResultBytes - bytes
    reservedDistinctObjects := window.reservedDistinctObjects - objects }

def BudgetWindow.consume (window : BudgetWindow) (actual : Cost) : BudgetWindow :=
  { window with
    consumedToolCalls := window.consumedToolCalls + actual.toolCalls
    consumedResultBytes := window.consumedResultBytes + actual.resultBytes
    consumedDistinctObjects := window.consumedDistinctObjects + actual.distinctObjects }

/-- The window update of `Reconcile`. -/
def BudgetWindow.settle (window : BudgetWindow) (reservation : BudgetReservation) (actual : Cost) :
    BudgetWindow :=
  (window.release reservation.reservedToolCalls reservation.reservedResultBytes
    reservation.reservedDistinctObjectsMax).consume actual

def BudgetReservation.reconciled (reservation : BudgetReservation) (actual : Cost) :
    BudgetReservation :=
  { reservation with
    state := .reconciled
    actualToolCalls := some actual.toolCalls
    actualResultBytes := some actual.resultBytes
    actualDistinctObjects := some actual.distinctObjects }

def ToolAttempt.dispatch (attempt : ToolAttempt) (backendRequestId : String) (leaseUntil : Time) :
    ToolAttempt :=
  { attempt with
    state := .running
    dispatchState := .dispatched
    backendRequestId := some backendRequestId
    leaseUntil := some leaseUntil
    lockVersion := attempt.lockVersion + 1 }

/-- The attempt update of `Reconcile`. -/
def ToolAttempt.acknowledge (attempt : ToolAttempt) (outcome : AttemptOutcome) (stamp : Time) :
    ToolAttempt :=
  { attempt with
    state := if outcome.success then .succeeded else .failed
    dispatchState := .acknowledged
    backendRequestId := some (attempt.backendRequestId.getD outcome.backendRequestId)
    leaseUntil := none
    completedAt := some stamp
    lockVersion := attempt.lockVersion + 1 }

/-- The attempt update that records a lost reply. -/
def ToolAttempt.lose (attempt : ToolAttempt) (now : Time) : ToolAttempt :=
  { attempt with
    state := .unknown
    dispatchState := .unknown
    unknownSince := some (attempt.unknownSince.getD now)
    leaseUntil := none
    lockVersion := attempt.lockVersion + 1 }

namespace Store

/-- Write one attempt row and append what the audit trigger records. -/
def writeAttempt (db : Database) (id : UUID) (old new : ToolAttempt) :
    Except StoreError Database := do
  let attempts ← demand .constraintViolation (db.attempts.put? id new)
  pure { db with
    attempts, audit := db.audit ++ captureOperationalAttemptAudit id (some old) new }

/-- `execOne` on `tool_attempt`. -/
def updateAttemptOne (db : Database) (id : UUID) (condition : ToolAttempt → Prop)
    [DecidablePred condition] (set : ToolAttempt → ToolAttempt) : Except StoreError Database := do
  let attempt ← demand .recoveryRowCount (db.attempts.get id)
  ensure (condition attempt) .recoveryRowCount
  writeAttempt db id attempt (set attempt)

/-- `Store.Dispatch` and `Store.MarkRunning`. -/
def markRunning (db : Database) (stamp : Time) (id : UUID) (backendRequestId : String)
    (lease : Time) (expected : Nat) : Except StoreError Database := do
  let attempt ← demand .noRows (db.attempts.get id)
  ensure (attempt.state = .admitted ∧ attempt.dispatchState = .notDispatched ∧
    attempt.lockVersion = expected) .noRows
  writeAttempt db id attempt (attempt.dispatch backendRequestId (stamp + lease))

/-- The writes of `Store.Reconcile`, once its guards have passed. -/
def settle (db : Database) (stamp : Time) (id : UUID) (reservation : BudgetReservation)
    (actual : Cost) (outcome : AttemptOutcome) : Except StoreError Database := do
  let windows ← db.windows.updateAny reservation.budgetWindowId (·.settle reservation actual)
    .constraintViolation
  let reservations ← demand .constraintViolation
    (db.reservations.put? id (reservation.reconciled actual))
  match db.attempts.get id with
  | none => pure { db with windows, reservations }
  | some attempt =>
    writeAttempt { db with windows, reservations } id attempt (attempt.acknowledge outcome stamp)

def reconcile (db : Database) (stamp : Time) (id : UUID) (actual : Cost)
    (outcome : AttemptOutcome) : Except StoreError Database := do
  let reservation ← demand .noRows (db.reservations.get id)
  if reservation.state = .reconciled then pure db
  else do
    ensure (¬ (actual.distinctObjects < 0 ∨
      actual.distinctObjects > reservation.reservedDistinctObjectsMax))
      .actualObjectsExceedReservation
    settle db stamp id reservation actual outcome

/-- `Store.Maintain`: leases that ran out on attempts without an admission context. -/
def maintain (db : Database) (now : Time) : Except StoreError Database :=
  (db.attempts.select fun id attempt =>
      decide (attempt.state = .running) && attempt.leaseUntil.any (· < now)
        && (db.contexts.get id).isNone).foldlM
    (fun db entry => writeAttempt db entry.1 entry.2 (entry.2.lose now)) db

/-- `Store.AppendAudit` -/
def appendAudit (db : Database) (event : AuditEvent) : Except StoreError Database := do
  ensure (event.attemptId.all fun id => (db.attempts.get id).isSome) .constraintViolation
  ensure (event.manifestChecksum.all fun checksum => decide (checksum ∈ db.manifestSnapshot))
    .constraintViolation
  pure { db with audit := db.audit ++ [event] }

end Store

end OufMcp.Ledger
