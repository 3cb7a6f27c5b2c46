import OufMcp.Ledger.Recovery

/-!
# Repair of the debt caches

`Store.ReconcileDebtCaches`.  A query without locks picks the windows whose cached
debt differs from the sum of their active debts; each of them is then read again
and repaired in a transaction of its own.  Every transaction that writes a debt
locks its window first, so the sum read under the window's lock is the current one.
-/

namespace OufMcp.Ledger

open Relational

structure DebtCacheReconciliationResult where
  checked : Int
  repaired : Int
  delta : Int
  deriving DecidableEq, Repr

inductive MaintenanceError where
  | batchLimit
  | negativeDebtTotal
  | repairRowCount
  | noRows
  | constraintViolation
  deriving DecidableEq, Repr

/-- The text of each error; the last two come from the driver. -/
def MaintenanceError.text : MaintenanceError → String
  | .batchLimit => "maintenance batch limit must be positive"
  | .negativeDebtTotal => "negative debt total violates persistence invariants"
  | .repairRowCount => "debt cache repair CAS affected an unexpected row count"
  | .noRows => "no rows in result set"
  | .constraintViolation => "constraint violation"

def debtCacheDelta (cached authoritative : Int) : Except MaintenanceError Int := do
  ensure (¬ (cached < 0 ∨ authoritative < 0)) .negativeDebtTotal
  pure (int64 (authoritative - cached))

namespace Store

def selectWrongCaches (seen : Database) (limit : Nat) : List UUID :=
  (firstBy (fun entry : UUID × BudgetWindow => (some entry.2.windowStart, entry.1)) limit
    (seen.windows.select fun id window =>
      decide (window.currentUnresolvedObjectDebtTotal ≠ seen.activeDebt id))).map (·.1)

def repairDebtCache (db : Database) (id : UUID) : Except MaintenanceError (Int × Database) := do
  let window ← demand .noRows (db.windows.get id)
  let cached := window.currentUnresolvedObjectDebtTotal
  let authoritative := db.activeDebt id
  ensure (bigint authoritative = true) .constraintViolation
  let delta ← debtCacheDelta cached authoritative
  if delta = 0 then pure (0, db)
  else do
    let windows ← db.windows.updateOne id (fun w => w.currentUnresolvedObjectDebtTotal = cached)
      (fun w => { w with currentUnresolvedObjectDebtTotal := authoritative })
      .constraintViolation .repairRowCount
    pure (delta, { db with
      windows
      audit := db.audit ++ [{
        eventType := "BUDGET_DEBT_CACHE_REPAIRED", actorType := "MAINTENANCE_WORKER"
        servicePrincipalId := none, attemptId := none, manifestChecksum := none
        safeDetail := .debtCacheRepaired id cached authoritative delta }] })

/-- The repairs of the picked windows, one after the other.  The first failure ends
them, with the result so far. -/
def repairDebtCaches : List UUID → DebtCacheReconciliationResult → Database →
    DebtCacheReconciliationResult × Option MaintenanceError × Database
  | [], result, db => (result, none, db)
  | id :: rest, result, db =>
    match repairDebtCache db id with
    | .error error => (result, some error, db)
    | .ok (delta, after) =>
      repairDebtCaches rest
        (if delta = 0 then result
          else { result with
            repaired := int64 (result.repaired + 1)
            delta := int64 (result.delta + delta) })
        after

/-- `Store.ReconcileDebtCaches` with nothing else running; the query saw `seen`. -/
def reconcileDebtCaches (seen db : Database) (limit : Int) :
    DebtCacheReconciliationResult × Option MaintenanceError × Database :=
  if limit < 1 then (⟨0, 0, 0⟩, some .batchLimit, db)
  else
    let ids := selectWrongCaches seen limit.toNat
    repairDebtCaches ids { checked := ids.length, repaired := 0, delta := 0 } db

end Store

end OufMcp.Ledger
