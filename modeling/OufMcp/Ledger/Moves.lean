import OufMcp.Ledger.Run

/-!
# What a transaction does to an attempt

The rows one governed attempt owns, spread over seven relations, and the changes
the transactions make to them.  Every invariant of the ledger is checked against
these changes, not against the transaction bodies.
-/

namespace OufMcp.Ledger

open Relational

/-- The rows of one governed attempt. -/
structure Rows where
  attempt : ToolAttempt
  context : AdmissionContext
  reservation : BudgetReservation
  claim : IdempotencyClaim
  window : BudgetWindow
  guard : RetryGuard
  debt : Option ObjectDebt

/-- The database stores these rows for the attempt. -/
structure Database.Holds (db : Database) (id : UUID) (rows : Rows) : Prop where
  attempt : db.attempts.get id = some rows.attempt
  context : db.contexts.get id = some rows.context
  reservation : db.reservations.get id = some rows.reservation
  claim : db.claims.get id = some rows.claim
  window : db.windows.get rows.context.budgetWindowId = some rows.window
  guard : db.guards.get rows.context.equivalenceGroupId = some rows.guard
  debt : db.debts.get id = rows.debt

/-- The types `OPERATIONAL_ATTEMPT_*`. -/
def operationalType (eventType : String) : Bool :=
  "OPERATIONAL_ATTEMPT_".toList.isPrefixOf eventType.toList

def AuditEvent.operational (event : AuditEvent) : Bool := operationalType event.eventType

/-- A transaction appends rows to the audit log, and rows of other types after them. -/
def Database.Appends (before : Database) (written : List AuditEvent) (after : Database) : Prop :=
  ∃ extra : List AuditEvent, after.audit = before.audit ++ written ++ extra ∧
    ∀ event ∈ extra, event.operational = false

theorem Database.Appends.of_eq {before after : Database} {written : List AuditEvent}
    (same : after.audit = before.audit ++ written) : before.Appends written after :=
  ⟨[], by rw [same, List.append_nil], List.forall_mem_nil _⟩

def Database.Names (db : Database) (ref id : UUID) : Prop :=
  ∃ row, db.evidence.get ref = some row ∧ row.attemptId = id

/-- The incidents are those from before, and new ones about evidence of their own attempt. -/
def Reports (before after : Database) : Prop :=
  ∀ key row, after.incidents.get key = some row →
    before.incidents.get key = some row ∨ before.Names row.evidenceRef row.attemptId

theorem Reports.of_eq {before after : Database} (same : after.incidents = before.incidents) :
    Reports before after := by
  intro key row found
  exact .inl (same ▸ found)

/-- The rows of one attempt are rewritten, and nothing else of these relations. -/
structure Touches (id : UUID) (before after : Database) (old new : Rows) : Prop where
  held : before.Holds id old
  sameContext : new.context = old.context
  manifests : after.manifestSnapshot = before.manifestSnapshot
  contexts : after.contexts = before.contexts
  groups : after.groups = before.groups
  attempts : before.attempts.Sets id new.attempt after.attempts
  reservations : before.reservations.Sets id new.reservation after.reservations
  claims : before.claims.Sets id new.claim after.claims
  windows : before.windows.Sets old.context.budgetWindowId new.window after.windows
  guards : before.guards.Sets old.context.equivalenceGroupId new.guard after.guards
  debts : (new.debt = old.debt ∧ after.debts = before.debts) ∨
    ∃ debt, new.debt = some debt ∧ before.debts.Puts id debt after.debts
  audit : before.Appends (captureOperationalAttemptAudit id (some old.attempt) new.attempt) after

namespace Touches

variable {id : UUID} {before after : Database} {old new : Rows}

theorem debt_get (touch : Touches id before after old new) : after.debts.get id = new.debt := by
  rcases touch.debts with ⟨same, kept⟩ | ⟨debt, written, put⟩
  · rw [kept, touch.held.debt, same]
  · rw [written, put.get_self]

theorem debt_of_ne (touch : Touches id before after old new) {other : UUID}
    (differ : other ≠ id) : after.debts.get other = before.debts.get other := by
  rcases touch.debts with ⟨_, kept⟩ | ⟨debt, _, put⟩
  · rw [kept]
  · exact put.get_of_ne differ

theorem holds (touch : Touches id before after old new) : after.Holds id new where
  attempt := touch.attempts.get_self
  context := by rw [touch.contexts, touch.held.context, touch.sameContext]
  reservation := touch.reservations.get_self
  claim := touch.claims.get_self
  window := by rw [touch.sameContext]; exact touch.windows.get_self
  guard := by rw [touch.sameContext]; exact touch.guards.get_self
  debt := touch.debt_get

end Touches

/-- The kinds of change a committed transaction is made of, with the cost charged and
the evidence spent. -/
inductive Kind where
  | append
  | note
  | prepare
  | admission
  | dispatch
  | settle (actual : Cost)
  | releaseAdmission
  | lose
  | hold
  | recover
  | expire
  | ingest
  | violate (ref : UUID)
  | compensate (ref : UUID) (inserted : Int)
  deriving DecidableEq, Repr

/-- What one pass of a transaction makes of the rows of an attempt. -/
inductive Change : Kind → Rows → Rows → Prop where
  /-- `MarkRunning` -/
  | dispatch {rows : Rows} (backendRequestId : String) (leaseUntil : Time)
      (admitted : rows.attempt.state = .admitted)
      (undispatched : rows.attempt.dispatchState = .notDispatched) :
      Change .dispatch rows
        { rows with attempt := rows.attempt.dispatch backendRequestId leaseUntil }
  /-- `Reconcile`, whatever state recovery has left the reservation in. -/
  | settle {rows : Rows} (actual : Cost) (outcome : AttemptOutcome) (stamp : Time)
      (unsettled : rows.reservation.state ≠ .reconciled)
      (objects : 0 ≤ actual.distinctObjects ∧
        actual.distinctObjects ≤ rows.reservation.reservedDistinctObjectsMax) :
      Change (.settle actual) rows { rows with
        window := rows.window.settle rows.reservation actual
        reservation := rows.reservation.reconciled actual
        attempt := rows.attempt.acknowledge outcome stamp }
  /-- `MarkStaleAndClaim`, an admission that no dispatch followed. -/
  | releaseAdmission {rows : Rows} (stamp : Time)
      (admitted : rows.attempt.state = .admitted)
      (undispatched : rows.attempt.dispatchState = .notDispatched)
      (reserved : rows.reservation.state = .reserved) (bound : rows.claim.state = .bound) :
      Change .releaseAdmission rows { rows with
        window := rows.window.release rows.reservation.reservedToolCalls
          rows.reservation.reservedResultBytes rows.reservation.reservedDistinctObjectsMax
        attempt := rows.attempt.failUndispatched stamp
        reservation := rows.reservation.releaseUnsent
        claim := rows.claim.complete }
  /-- `MarkStaleAndClaim`, a dispatch whose lease ran out. -/
  | lose {rows : Rows} (now : Time) (debt : Option ObjectDebt)
      (running : rows.attempt.state = .running)
      (reserved : rows.reservation.state = .reserved) (bound : rows.claim.state = .bound)
      (opened : (0 < rows.reservation.reservedDistinctObjectsMax ∧ rows.debt = none ∧
          debt = some (.opened rows.context.budgetWindowId
            rows.reservation.reservedDistinctObjectsMax)) ∨
        (rows.reservation.reservedDistinctObjectsMax ≤ 0 ∧ debt = rows.debt)) :
      Change .lose rows { rows with
        attempt := rows.attempt.lose now
        guard := rows.guard.block
        window := rows.window.moveToDebt rows.reservation.reservedDistinctObjectsMax
        debt
        reservation := rows.reservation.lose rows.reservation.reservedDistinctObjectsMax
        claim := rows.claim.lose }
  /-- A worker takes or gives back an uncertain attempt. -/
  | hold {rows : Rows} (owner : Option (String × Time)) (unknown : rows.attempt.state = .unknown) :
      Change .hold rows { rows with
        attempt := match owner with
          | some (worker, leaseUntil) => rows.attempt.hold worker leaseUntil
          | none => rows.attempt.letGo }
  /-- `ApplyOwnerEvidence`, a decided outcome. -/
  | recover {rows : Rows} (evidence : OwnerEvidence) (stamp : Time)
      (unknown : rows.attempt.state = .unknown)
      (uncertain : rows.reservation.state = .unknown)
      (lost : rows.claim.state = .unknown)
      (calls : 0 ≤ evidence.actualToolCalls ∧
        evidence.actualToolCalls ≤ rows.reservation.reservedToolCalls)
      (bytes : 0 ≤ evidence.actualResultBytes ∧
        evidence.actualResultBytes ≤ rows.reservation.reservedResultBytes)
      (objects : rows.reservation.reservedDistinctObjectsMax ≤ 0)
      (blocked : 0 < rows.guard.blockingAttempts) :
      Change .recover rows { rows with
        window := rows.window.recover rows.reservation.reservedToolCalls
          rows.reservation.reservedResultBytes evidence.consumeCalls evidence.consumeBytes
        guard := rows.guard.unblock
        attempt := rows.attempt.recover evidence stamp
        reservation := rows.reservation.recover evidence
        claim := rows.claim.complete }
  /-- `ExpireUnknown` -/
  | expire {rows : Rows} (now : Time)
      (unknown : rows.attempt.state = .unknown)
      (uncertain : rows.reservation.state = .unknown) (lost : rows.claim.state = .unknown) :
      Change .expire rows { rows with
        window := rows.window.recover rows.reservation.reservedToolCalls
          rows.reservation.reservedResultBytes rows.reservation.reservedToolCalls
          rows.reservation.reservedResultBytes
        reservation := rows.reservation.expire
        claim := rows.claim.complete
        attempt := rows.attempt.expire now }
  /-- `LateCompensate`, authoritative evidence in violation. -/
  | violate {rows : Rows} (ref : UUID) (stamp : Time) (code : String)
      (resultRef : Option String) (debt : ObjectDebt)
      (uncertain : rows.attempt.state.uncertain = true)
      (owed : rows.debt = some debt) (active : debt.debtState = .active) :
      Change (.violate ref) rows { rows with
        attempt := rows.attempt.conclude stamp .failed .acknowledged code resultRef }
  /-- `LateCompensate`, evidence spent after the hold ended. -/
  | compensateUnresolved {rows : Rows} (stamp : Time) (ref : UUID) (inserted : Int)
      (terminal : TerminalState) (dispatchState : DispatchState) (code : String)
      (resultRef : Option String) (debt : ObjectDebt)
      (unresolved : rows.attempt.state = .unresolved)
      (owed : rows.debt = some debt) (active : debt.debtState = .active)
      (covered : debt.debtAmount ≤ rows.window.currentUnresolvedObjectDebtTotal)
      (counted : 0 ≤ inserted ∧ inserted ≤ debt.debtAmount)
      (blocked : 0 < rows.guard.blockingAttempts) :
      Change (.compensate ref inserted) rows { rows with
        debt := some (debt.resolve ref stamp)
        window := rows.window.compensate inserted debt.debtAmount
        guard := rows.guard.unblock
        attempt := rows.attempt.conclude stamp terminal.attemptState dispatchState code resultRef }
  /-- `LateCompensate`, a proof that nothing was dispatched, during the hold. -/
  | compensateUnknown {rows : Rows} (stamp : Time) (ref : UUID) (inserted : Int)
      (terminal : TerminalState) (code : String) (resultRef : Option String) (debt : ObjectDebt)
      (unknown : rows.attempt.state = .unknown)
      (uncertain : rows.reservation.state = .unknown) (lost : rows.claim.state = .unknown)
      (owed : rows.debt = some debt) (active : debt.debtState = .active)
      (covered : debt.debtAmount ≤ rows.window.currentUnresolvedObjectDebtTotal)
      (counted : 0 ≤ inserted ∧ inserted ≤ debt.debtAmount)
      (blocked : 0 < rows.guard.blockingAttempts) :
      Change (.compensate ref inserted) rows { rows with
        debt := some (debt.resolve ref stamp)
        window := (rows.window.compensate inserted debt.debtAmount).release
          rows.reservation.reservedToolCalls rows.reservation.reservedResultBytes 0
        guard := rows.guard.unblock
        reservation := rows.reservation.releaseProven
        claim := rows.claim.complete
        attempt := rows.attempt.conclude stamp terminal.attemptState .notDispatched code resultRef }

/-- No change rewrites what an attempt was admitted with. -/
theorem Change.immutable {kind : Kind} {old new : Rows} (change : Change kind old new) :
    new.context = old.context ∧
      new.reservation.budgetWindowId = old.reservation.budgetWindowId ∧
      new.reservation.reservedToolCalls = old.reservation.reservedToolCalls ∧
      new.reservation.reservedResultBytes = old.reservation.reservedResultBytes ∧
      new.reservation.reservedDistinctObjectsMax = old.reservation.reservedDistinctObjectsMax ∧
      new.claim.key = old.claim.key ∧ new.claim.requestHash = old.claim.requestHash ∧
      new.window.policyRef = old.window.policyRef := by
  cases change <;> exact ⟨rfl, rfl, rfl, rfl, rfl, rfl, rfl, rfl⟩

/-- The lock version of an attempt never falls, and grows whenever its state changes. -/
theorem Change.lockVersion {kind : Kind} {old new : Rows} (change : Change kind old new) :
    old.attempt.lockVersion ≤ new.attempt.lockVersion ∧
      (new.attempt.state = old.attempt.state ∨
        old.attempt.lockVersion < new.attempt.lockVersion) := by
  cases change with
  | hold owner unknown => cases owner <;> exact ⟨le_refl _, .inl rfl⟩
  | _ => exact ⟨Nat.le_succ _, .inr (Nat.lt_succ_self _)⟩

end OufMcp.Ledger
