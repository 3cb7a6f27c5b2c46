import OufMcp.Relational.Deletion
import OufMcp.Ledger.Operations

/-!
# Retention

The database functions that delete what has been kept long enough:
`purge_terminal_attempt_graph`, which takes finished attempts with everything that
belongs to them and then the windows, groups, guards and objects nobody refers to,
`purge_owner_evidence` and `purge_audit_events`.  A delete fails with all of its
transaction when a foreign key still refers to a row that it takes.
-/

namespace OufMcp.Ledger

open Relational Transition

inductive RetentionError where
  | batchLimit
  | cutoff
  | foreignKey
  deriving DecidableEq, Repr

/-- The text of each error; the last one comes from the database. -/
def RetentionError.text : RetentionError → String
  | .batchLimit => "invalid retention batch limit"
  | .cutoff => "invalid retention cutoff"
  | .foreignKey => "foreign key violation"

/-! ## Foreign keys -/

namespace Database

variable (db : Database)

/-- The foreign keys on `owner_evidence_inbox(evidence_ref)`. -/
def refersToEvidence (ref : UUID) : Bool :=
  db.debts.any (fun _ debt => decide (debt.ownerEvidenceRef = some ref))
    || db.adjustments.any (fun _ adjustment => decide (adjustment.ownerEvidenceRef = ref))
    || db.incidents.any (fun _ incident => decide (incident.evidenceRef = ref))

/-- The foreign keys on `attempt_admission_context(attempt_id, budget_window_id)`. -/
def refersToContext (id window : UUID) : Bool :=
  db.evidence.any (fun _ row => decide (row.attemptId = id ∧ row.budgetWindowId = window))
    || db.debts.any (fun attempt debt => decide (attempt = id ∧ debt.budgetWindowId = window))
    || db.adjustments.any (fun _ row => decide (row.attemptId = id ∧ row.budgetWindowId = window))

/-- The foreign keys on `tool_attempt(attempt_id)`; the idempotency claims have none. -/
def refersToAttempt (id : UUID) : Bool :=
  db.audit.any (fun event => decide (event.attemptId = some id))
    || db.contexts.any (fun attempt _ => decide (attempt = id))
    || db.reservations.any (fun attempt _ => decide (attempt = id))
    || db.evidence.any (fun _ row => decide (row.attemptId = id))
    || db.debts.any (fun attempt _ => decide (attempt = id))
    || db.adjustments.any (fun _ row => decide (row.attemptId = id))
    || db.incidents.any (fun _ row => decide (row.attemptId = id))

/-- The foreign keys on `retry_equivalence_group(equivalence_group_id)`. -/
def refersToGroup (id : UUID) : Bool :=
  db.contexts.any (fun _ context => decide (context.equivalenceGroupId = id))
    || db.guards.any (fun group _ => decide (group = id))

/-- The foreign keys on `budget_window(budget_window_id)`. -/
def refersToWindow (id : UUID) : Bool :=
  db.groups.any (fun _ group => decide (group.budgetWindowId = id))
    || db.contexts.any (fun _ context => decide (context.budgetWindowId = id))
    || db.reservations.any (fun _ reservation => decide (reservation.budgetWindowId = id))
    || db.evidence.any (fun _ row => decide (row.budgetWindowId = id))
    || db.debts.any (fun _ debt => decide (debt.budgetWindowId = id))
    || db.objects.any (fun row _ => decide (row.budgetWindowId = id))
    || db.adjustments.any (fun _ row => decide (row.budgetWindowId = id))

end Database

namespace Store

/-! ## `purge_terminal_attempt_graph` -/

def retentionBatch (most : Int) (now : Time) (before : Option Time) (limit : Option Int) :
    Except RetentionError (Time × Nat) := do
  let limit ← demand .batchLimit limit
  ensure (1 ≤ limit ∧ limit ≤ most) .batchLimit
  let before ← demand .cutoff before
  ensure (before < now) .cutoff
  pure (before, limit.toNat)

def purgeable (db : Database) (before : Time) (id : UUID) (attempt : ToolAttempt) : Bool :=
  attempt.completedAt.any (fun completed => decide (completed < before))
    && attempt.state.terminal
    && !db.audit.any (fun event => decide (event.attemptId = some id))
    && !db.evidence.any (fun _ row =>
      decide (row.attemptId = id) && decide (row.evidenceState = .verified))
    && !db.debts.any (fun owner debt =>
      decide (owner = id) && decide (debt.debtState = .active))

/-- `order by completed_at, attempt_id limit .. for update skip locked`. -/
def selectPurgeable (db : Database) (before : Time) (limit : Nat) (locked : List UUID) :
    List UUID :=
  (firstBy (fun entry : UUID × ToolAttempt => (entry.2.completedAt, entry.1)) limit
    (db.attempts.select fun id attempt =>
      purgeable db before id attempt && !locked.contains id)).map (·.1)

def deleteAttempts (db : Database) (picked : List UUID) : Except RetentionError Database := do
  let incidents := db.incidents.without fun _ row => picked.contains row.attemptId
  let adjustments := db.adjustments.without fun _ row => picked.contains row.attemptId
  let debts := db.debts.without fun id debt =>
    picked.contains id && decide (debt.debtState = .resolved)
  let db := { db with incidents, adjustments, debts }
  let evidence ← demand .foreignKey (db.evidence.delete?
    (fun _ row => picked.contains row.attemptId &&
      decide (row.evidenceState = .consumed ∨ row.evidenceState = .quarantined))
    fun ref _ => db.refersToEvidence ref)
  let claims := db.claims.without fun id _ => picked.contains id
  let reservations := db.reservations.without fun id reservation =>
    picked.contains id &&
      decide (reservation.state = .reconciled ∨ reservation.state = .released)
  let db := { db with evidence, claims, reservations }
  let contexts ← demand .foreignKey (db.contexts.delete? (fun id _ => picked.contains id)
    fun id context => db.refersToContext id context.budgetWindowId)
  let db := { db with contexts }
  let attempts ← demand .foreignKey (db.attempts.delete? (fun id _ => picked.contains id)
    fun id _ => db.refersToAttempt id)
  pure { db with attempts }

def ended (db : Database) (before : Time) (window : UUID) : Bool :=
  (db.windows.get window).any fun row => decide (row.windowEnd < before)

def deleteParents (db : Database) (before : Time) : Except RetentionError Database := do
  let guards := db.guards.without fun id _ =>
    (db.groups.get id).any (fun group => ended db before group.budgetWindowId)
      && !db.contexts.any (fun _ context => decide (context.equivalenceGroupId = id))
  let objects := db.objects.without fun row _ =>
    ended db before row.budgetWindowId
      && !db.contexts.any (fun _ context => decide (context.budgetWindowId = row.budgetWindowId))
      && !db.debts.any (fun _ debt => decide (debt.budgetWindowId = row.budgetWindowId))
      && !db.adjustments.any (fun _ other => decide (other.budgetWindowId = row.budgetWindowId))
  let db := { db with guards, objects }
  let groups ← demand .foreignKey (db.groups.delete?
    (fun id group => ended db before group.budgetWindowId
      && !db.contexts.any (fun _ context => decide (context.equivalenceGroupId = id))
      && !db.guards.any (fun other _ => decide (other = id)))
    fun id _ => db.refersToGroup id)
  let db := { db with groups }
  let windows ← demand .foreignKey (db.windows.delete?
    (fun id window => decide (window.windowEnd < before)
      && !db.contexts.any (fun _ context => decide (context.budgetWindowId = id))
      && !db.reservations.any (fun _ reservation => decide (reservation.budgetWindowId = id))
      && !db.debts.any (fun _ debt => decide (debt.budgetWindowId = id))
      && !db.adjustments.any (fun _ adjustment => decide (adjustment.budgetWindowId = id))
      && !db.groups.any (fun _ group => decide (group.budgetWindowId = id)))
    fun id _ => db.refersToWindow id)
  pure { db with windows }

/-- `purge_terminal_attempt_graph`, with the number of attempts it deleted; `locked` are the
attempts that other transactions hold. -/
def purgeTerminalAttemptGraph (db : Database) (now : Time) (before : Option Time)
    (limit : Option Int) (locked : List UUID) : Except RetentionError (Nat × Database) := do
  let (before, limit) ← retentionBatch 1000 now before limit
  let picked := selectPurgeable db before limit locked
  let middle ← deleteAttempts db picked
  let after ← deleteParents middle before
  pure (picked.length, after)

/-! ## The other purges -/

/-- `purge_owner_evidence`; the rows carry no creation time here, so the query takes any of
those that meet its other conditions. -/
def purgeOwnerEvidence (db : Database) (now : Time) (before : Option Time) (limit : Option Int)
    (chosen : List UUID) : Except RetentionError Database := do
  let (_, limit) ← retentionBatch 10000 now before limit
  let evidence ← demand .foreignKey (db.evidence.delete?
    (fun ref row => (chosen.take limit).contains ref
      && decide (row.evidenceState = .consumed ∨ row.evidenceState = .quarantined)
      && (db.attempts.get row.attemptId).any (fun attempt => attempt.state.terminal)
      && !db.debts.any (fun _ debt => decide (debt.ownerEvidenceRef = some ref))
      && !db.adjustments.any (fun _ adjustment => decide (adjustment.ownerEvidenceRef = ref))
      && !db.incidents.any (fun _ incident => decide (incident.evidenceRef = ref)))
    fun ref _ => db.refersToEvidence ref)
  pure { db with evidence }

/-- `purge_audit_events`, for any rows old enough, given by their positions. -/
def purgeAuditEvents (db : Database) (now : Time) (before : Option Time) (limit : Option Int)
    (chosen : List Nat) : Except RetentionError Database := do
  let (_, limit) ← retentionBatch 10000 now before limit
  pure { db with
    audit := (db.audit.zipIdx.filter fun entry => !(chosen.take limit).contains entry.2).map (·.1) }

end Store

end OufMcp.Ledger
