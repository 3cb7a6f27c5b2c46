import OufMcp.Ledger.Moves

/-!
# Moves of the database

A committed transaction is a chain of moves.  A move changes the rows of one
attempt, admits a new one, prepares the relations an admission needs, or records
evidence; compensation and quarantine also write the evidence inbox.  The audit
journal and the incident relation are free in every move.
-/

namespace OufMcp.Ledger

open Relational

variable {id other : UUID}

def objectsIn (objects : Table DistinctObject budgetDistinctObject) (window : UUID) : Int :=
  objects.sum fun row _ => if row.budgetWindowId = window then 1 else 0

structure Database.Absent (db : Database) (id : UUID) : Prop where
  attempt : db.attempts.get id = none
  context : db.contexts.get id = none
  reservation : db.reservations.get id = none
  claim : db.claims.get id = none
  debt : db.debts.get id = none

variable {db : Database}

structure BudgetWindow.Unused (window : BudgetWindow) : Prop where
  reservedToolCalls : window.reservedToolCalls = 0
  consumedToolCalls : window.consumedToolCalls = 0
  reservedResultBytes : window.reservedResultBytes = 0
  consumedResultBytes : window.consumedResultBytes = 0
  reservedDistinctObjects : window.reservedDistinctObjects = 0
  consumedDistinctObjects : window.consumedDistinctObjects = 0
  currentUnresolvedObjectDebtTotal : window.currentUnresolvedObjectDebtTotal = 0

theorem AdmissionRequest.newWindow_unused (req : AdmissionRequest) (policyRef : String)
    (start : Time) : (req.newWindow policyRef start).Unused :=
  ⟨rfl, rfl, rfl, rfl, rfl, rfl, rfl⟩

variable {req : AdmissionRequest}

/-- One attempt is admitted, under the budget of its window. -/
structure Admits (id : UUID) (req : AdmissionRequest) (rows : Rows) (before after : Database) :
    Prop where
  attempt : ∃ now, rows.attempt = req.newAttempt now
  reservation : rows.reservation = req.newReservation rows.context.budgetWindowId
  claim : rows.claim = req.newClaim
  debt : rows.debt = none
  window : ∃ window limit, rows.window = window.reserve req.maximum ∧
    before.windows.get rows.context.budgetWindowId = some window ∧
    Store.admissionPolicy req = .ok (window.policyRef, limit) ∧
    window.exceeded (before.activeDebt rows.context.budgetWindowId) req.maximum limit = false
  registered : req.manifestChecksum ∈ before.manifestSnapshot
  unclaimed : before.claimFor req.claimKey = none
  absent : before.Absent id
  guard : before.guards.get rows.context.equivalenceGroupId = some rows.guard
  unblocked : rows.guard.blockingAttempts ≤ 0
  attempts : before.attempts.Puts id rows.attempt after.attempts
  contexts : before.contexts.Puts id rows.context after.contexts
  reservations : before.reservations.Puts id rows.reservation after.reservations
  claims : before.claims.Puts id rows.claim after.claims
  windows : before.windows.Puts rows.context.budgetWindowId rows.window after.windows
  manifests : after.manifestSnapshot = before.manifestSnapshot
  groups : after.groups = before.groups
  guards : after.guards = before.guards
  debts : after.debts = before.debts
  evidence : after.evidence = before.evidence
  objects : after.objects = before.objects
  adjustments : after.adjustments = before.adjustments
  incidents : after.incidents = before.incidents
  audit : before.Appends (captureOperationalAttemptAudit id none rows.attempt) after

/-- Evidence that names an attempt's window, owner and backend request. -/
structure InboxEvidence.BoundTo (evidence : InboxEvidence) (rows : Rows) : Prop where
  window : evidence.budgetWindowId = rows.context.budgetWindowId
  owner : evidence.backendOwner = rows.context.owner
  request : rows.attempt.backendRequestId = some evidence.backendRequestId

def Kind.plain : Kind → Bool
  | .violate _ | .compensate _ _ => false
  | _ => true

variable {allowed : Kind → Prop}

/-- One attempt changes and the evidence inbox does not. -/
structure Rewrites (kind : Kind) (id : UUID) (before after : Database) (old new : Rows) : Prop where
  plain : kind.plain = true
  touch : Touches id before after old new
  change : Change kind old new
  evidence : after.evidence = before.evidence
  objects : after.objects = before.objects
  adjustments : after.adjustments = before.adjustments
  incidents : after.incidents = before.incidents

inductive Move : Kind → Database → Database → Prop where
  | append {db : Database} (events : List AuditEvent) :
      Move .append db { db with audit := db.audit ++ events }
  | note {db : Database} (incidents : Table String securityIncident) (extra : List AuditEvent)
      (ordinary : ∀ event ∈ extra, event.operational = false)
      (reports : Reports db { db with incidents, audit := db.audit ++ extra }) :
      Move .note db { db with incidents, audit := db.audit ++ extra }
  | openWindow {db : Database} (id : UUID) (window : BudgetWindow)
      (windows : Table UUID budgetWindow) (fresh : db.windows.get id = none)
      (unused : window.Unused) (put : db.windows.Puts id window windows) :
      Move .prepare db { db with windows }
  | openGroup {db : Database} (groups : Table UUID retryEquivalenceGroup) :
      Move .prepare db { db with groups }
  | openGuard {db : Database} (group : UUID) (guard : RetryGuard) (guards : Table UUID retryGuard)
      (fresh : db.guards.get group = none) (free : guard.blockingAttempts = 0)
      (put : db.guards.Puts group guard guards) :
      Move .prepare db { db with guards }
  | countGuard {db : Database} (group : UUID) (old new : RetryGuard)
      (guards : Table UUID retryGuard) (found : db.guards.get group = some old)
      (same : new.blockingAttempts = old.blockingAttempts)
      (put : db.guards.Puts group new guards) :
      Move .prepare db { db with guards }
  | admission {before after : Database} {id : UUID} {req : AdmissionRequest} {rows : Rows}
      (admits : Admits id req rows before after) : Move .admission before after
  | rewrite {kind : Kind} {before after : Database} {id : UUID} {old new : Rows}
      (rewrites : Rewrites kind id before after old new) : Move kind before after
  | ingest {db : Database} {rows : Rows} (ref : UUID) (row : InboxEvidence)
      (evidence : Table UUID ownerEvidenceInbox) (held : db.Holds row.attemptId rows)
      (bound : row.BoundTo rows) (fresh : db.evidence.get ref = none)
      (verified : row.evidenceState = .verified) (put : db.evidence.Puts ref row evidence) :
      Move .ingest db { db with evidence }
  | violate {before after : Database} {ref : UUID} {row : InboxEvidence} {old new : Rows}
      (stamp : Time) (found : before.evidence.get ref = some row)
      (verified : row.evidenceState = .verified)
      (touch : Touches row.attemptId before after old new)
      (change : Change (.violate ref) old new)
      (put : before.evidence.Puts ref
        { row with evidenceState := .quarantined, consumedAt := some stamp } after.evidence)
      (objects : after.objects = before.objects)
      (adjustments : after.adjustments = before.adjustments) (reports : Reports before after) :
      Move (.violate ref) before after
  | compensate {before after : Database} {ref : UUID} {inserted : Int} {row : InboxEvidence}
      {old new : Rows} {key : String} {adjustment : BudgetAdjustment}
      (stamp : Time) (found : before.evidence.get ref = some row)
      (verified : row.evidenceState = .verified)
      (touch : Touches row.attemptId before after old new)
      (change : Change (.compensate ref inserted) old new)
      (put : before.evidence.Puts ref
        { row with evidenceState := .consumed, consumedAt := some stamp } after.evidence)
      (counted : ∀ window, objectsIn after.objects window = objectsIn before.objects window +
        if window = old.context.budgetWindowId then inserted else 0)
      (unadjusted : before.adjustments.get key = none)
      (adjusts : adjustment.attemptId = row.attemptId ∧ adjustment.ownerEvidenceRef = ref)
      (adjustments : before.adjustments.Puts key adjustment after.adjustments)
      (incidents : after.incidents = before.incidents) :
      Move (.compensate ref inserted) before after

/-! ## One attempt across a move -/

/-- The rows an attempt owns agree; its window and guard may have moved for others. -/
structure Rows.Same (old new : Rows) : Prop where
  attempt : new.attempt = old.attempt
  context : new.context = old.context
  reservation : new.reservation = old.reservation
  claim : new.claim = old.claim
  debt : new.debt = old.debt
  policy : new.window.policyRef = old.window.policyRef

variable {rows old new : Rows}

theorem Database.Holds.unique {a b : Rows} (left : db.Holds id a) (right : db.Holds id b) :
    a = b := by
  have attempt := Option.some.inj (left.attempt.symm.trans right.attempt)
  have context := Option.some.inj (left.context.symm.trans right.context)
  have reservation := Option.some.inj (left.reservation.symm.trans right.reservation)
  have claim := Option.some.inj (left.claim.symm.trans right.claim)
  have window := Option.some.inj (left.window.symm.trans (context ▸ right.window))
  have guard := Option.some.inj (left.guard.symm.trans (context ▸ right.guard))
  have debt := left.debt.symm.trans right.debt
  cases a
  cases b
  simp_all

theorem Database.Absent.not_holds (absent : db.Absent id) (held : db.Holds id rows) : False := by
  have impossible := absent.attempt.symm.trans held.attempt
  cases impossible

/-- An attempt whose own rows stay is still held when its window and guard are. -/
theorem Database.Holds.keep {before after : Database} {window : BudgetWindow} {guard : RetryGuard}
    (held : before.Holds id rows) (attempt : after.attempts.get id = before.attempts.get id)
    (context : after.contexts.get id = before.contexts.get id)
    (reservation : after.reservations.get id = before.reservations.get id)
    (claim : after.claims.get id = before.claims.get id)
    (debt : after.debts.get id = before.debts.get id)
    (windowAt : after.windows.get rows.context.budgetWindowId = some window)
    (guardAt : after.guards.get rows.context.equivalenceGroupId = some guard)
    (policy : window.policyRef = rows.window.policyRef) :
    ∃ new, after.Holds id new ∧ rows.Same new :=
  ⟨{ rows with window, guard },
    ⟨attempt.trans held.attempt, context.trans held.context,
      reservation.trans held.reservation, claim.trans held.claim, windowAt, guardAt,
      debt.trans held.debt⟩,
    ⟨rfl, rfl, rfl, rfl, rfl, policy⟩⟩

theorem window_after {before after : Table UUID budgetWindow} {key other : UUID}
    {old new window : BudgetWindow} (write : before.Sets key new after)
    (found : before.get key = some old) (policy : new.policyRef = old.policyRef)
    (held : before.get other = some window) :
    ∃ moved, after.get other = some moved ∧ moved.policyRef = window.policyRef := by
  by_cases same : other = key
  · subst same
    obtain rfl := Option.some.inj (found.symm.trans held)
    exact ⟨new, write.get_self, policy⟩
  · exact ⟨window, (write.get_of_ne same).trans held, rfl⟩

theorem guard_after {before after : Table UUID retryGuard} {key other : UUID}
    {new guard : RetryGuard} (write : before.Sets key new after)
    (held : before.get other = some guard) : ∃ moved, after.get other = some moved := by
  by_cases same : other = key
  · exact ⟨new, same ▸ write.get_self⟩
  · exact ⟨guard, (write.get_of_ne same).trans held⟩

theorem Database.Holds.guards {db : Database} {id key : UUID} {rows : Rows} {guard : RetryGuard}
    {guards : Table UUID retryGuard} (held : db.Holds id rows)
    (put : db.guards.Puts key guard guards) :
    ∃ new, { db with guards }.Holds id new ∧ rows.Same new := by
  obtain ⟨moved, guardAt⟩ := guard_after (.inl put) held.guard
  exact ⟨{ rows with guard := moved },
    ⟨held.attempt, held.context, held.reservation, held.claim, held.window, guardAt, held.debt⟩,
    ⟨rfl, rfl, rfl, rfl, rfl, rfl⟩⟩

/-- The attempt that is touched changes, and every other one keeps its rows. -/
theorem Touches.forward {before after : Database} {kind : Kind}
    (touch : Touches id before after old new) (change : Change kind old new)
    (held : before.Holds other rows) :
    ∃ later, after.Holds other later ∧ (rows.Same later ∨ Change kind rows later) := by
  by_cases same : other = id
  · subst same
    obtain rfl := touch.held.unique held
    exact ⟨new, touch.holds, .inr change⟩
  · obtain ⟨window, windowAt, policy⟩ := window_after touch.windows touch.held.window
      change.immutable.2.2.2.2.2.2.2 held.window
    obtain ⟨guard, guardAt⟩ := guard_after touch.guards held.guard
    obtain ⟨later, kept, own⟩ := held.keep (touch.attempts.get_of_ne same)
      (by rw [touch.contexts]) (touch.reservations.get_of_ne same)
      (touch.claims.get_of_ne same) (touch.debt_of_ne same) windowAt guardAt policy
    exact ⟨later, kept, .inl own⟩

theorem Touches.absent {id other : UUID} {before after : Database} {old new : Rows}
    (touch : Touches id before after old new) (absent : before.Absent other) :
    after.Absent other := by
  have differ : other ≠ id := by
    rintro rfl
    exact absent.not_holds touch.held
  exact ⟨(touch.attempts.get_of_ne differ).trans absent.attempt,
    (by rw [touch.contexts]; exact absent.context),
    (touch.reservations.get_of_ne differ).trans absent.reservation,
    (touch.claims.get_of_ne differ).trans absent.claim,
    (touch.debt_of_ne differ).trans absent.debt⟩

theorem Admits.holds {before after : Database} (admits : Admits id req rows before after) :
    after.Holds id rows where
  attempt := admits.attempts.get_self
  context := admits.contexts.get_self
  reservation := admits.reservations.get_self
  claim := admits.claims.get_self
  window := admits.windows.get_self
  guard := by rw [admits.guards]; exact admits.guard
  debt := by rw [admits.debts, admits.absent.debt, admits.debt]

theorem Admits.forward {rows own : Rows} {before after : Database}
    (admits : Admits id req rows before after) (held : before.Holds other own) :
    ∃ later, after.Holds other later ∧ own.Same later := by
  have differ : other ≠ id := by
    rintro rfl
    exact admits.absent.not_holds held
  obtain ⟨window, limit, reserved, found, -⟩ := admits.window
  have policy : rows.window.policyRef = window.policyRef := by
    rw [reserved]
    rfl
  obtain ⟨moved, windowAt, samePolicy⟩ :=
    window_after (.inl admits.windows) found policy held.window
  exact held.keep (admits.attempts.get_of_ne differ) (admits.contexts.get_of_ne differ)
    (admits.reservations.get_of_ne differ) (admits.claims.get_of_ne differ)
    (by rw [admits.debts]) windowAt (by rw [admits.guards]; exact held.guard) samePolicy

theorem Admits.absent_of_ne {before after : Database} (admits : Admits id req rows before after)
    (differ : other ≠ id) (absent : before.Absent other) : after.Absent other :=
  ⟨(admits.attempts.get_of_ne differ).trans absent.attempt,
    (admits.contexts.get_of_ne differ).trans absent.context,
    (admits.reservations.get_of_ne differ).trans absent.reservation,
    (admits.claims.get_of_ne differ).trans absent.claim,
    by rw [admits.debts]; exact absent.debt⟩

/-- A governed attempt stays governed: its own rows stay, or change by the move's kind. -/
theorem Move.forward {kind : Kind} {before after : Database} (move : Move kind before after)
    (held : before.Holds id rows) :
    ∃ later, after.Holds id later ∧ (rows.Same later ∨ Change kind rows later) := by
  have own : rows.Same rows := ⟨rfl, rfl, rfl, rfl, rfl, rfl⟩
  cases move with
  | append | note =>
    exact ⟨rows, ⟨held.1, held.2, held.3, held.4, held.5, held.6, held.7⟩, .inl own⟩
  | openWindow key window windows fresh unused put =>
    have differ : rows.context.budgetWindowId ≠ key := by
      intro same
      have impossible := fresh.symm.trans (same ▸ held.window)
      cases impossible
    exact ⟨rows, ⟨held.1, held.2, held.3, held.4,
      (put.get_of_ne differ).trans held.window, held.6, held.7⟩, .inl own⟩
  | openGroup groups =>
    exact ⟨rows, ⟨held.1, held.2, held.3, held.4, held.5, held.6, held.7⟩, .inl own⟩
  | openGuard group guard guards fresh free put =>
    obtain ⟨later, kept, same⟩ := held.guards put
    exact ⟨later, kept, .inl same⟩
  | countGuard group old new guards found same put =>
    obtain ⟨later, kept, same⟩ := held.guards put
    exact ⟨later, kept, .inl same⟩
  | admission admits =>
    obtain ⟨later, kept, same⟩ := admits.forward held
    exact ⟨later, kept, .inl same⟩
  | rewrite rewrites => exact rewrites.touch.forward rewrites.change held
  | ingest ref row evidence _ bound fresh verified put =>
    exact ⟨rows, ⟨held.1, held.2, held.3, held.4, held.5, held.6, held.7⟩, .inl own⟩
  | violate stamp found verified touch change put objects adjustments =>
    exact touch.forward change held
  | compensate stamp found verified touch change put counted unadjusted adjusts adjustments =>
    exact touch.forward change held

theorem Move.absent {kind : Kind} {before after : Database} (move : Move kind before after)
    {id : UUID} (absent : before.Absent id) :
    after.Absent id ∨ kind = .admission ∧ ∃ req rows, Admits id req rows before after := by
  cases move with
  | admission admits =>
    rename_i admitted req rows
    by_cases same : id = admitted
    · subst same
      exact .inr ⟨rfl, req, rows, admits⟩
    · exact .inl (admits.absent_of_ne same absent)
  | rewrite rewrites => exact .inl (rewrites.touch.absent absent)
  | violate stamp found verified touch change put objects adjustments =>
    exact .inl (touch.absent absent)
  | compensate stamp found verified touch change put counted unadjusted adjusts adjustments =>
    exact .inl (touch.absent absent)
  | _ => exact .inl ⟨absent.1, absent.2, absent.3, absent.4, absent.5⟩

/-! ## Well-formed databases -/

theorem BudgetReservation.objects_nonneg {table : Table UUID budgetReservation}
    {reservation : BudgetReservation} (found : table.get id = some reservation) :
    0 ≤ reservation.reservedDistinctObjectsMax := by
  have checked := Table.check_of_get found
  simp only [budgetReservation, Bool.and_eq_true, decide_eq_true_eq] at checked
  exact checked.1.2

/-- The rows of one attempt agree with each other. -/
structure Rows.Sound (rows : Rows) : Prop where
  reservation : rows.reservation.budgetWindowId = rows.context.budgetWindowId
  charged : 1 ≤ rows.reservation.reservedToolCalls
  debt : ∀ debt, rows.debt = some debt → debt.budgetWindowId = rows.context.budgetWindowId ∧
    debt.debtAmount = rows.reservation.reservedDistinctObjectsMax
  unsent : rows.attempt.state = .admitted → rows.attempt.backendRequestId = none

theorem Rows.Same.sound {old new : Rows} (same : old.Same new) (sound : old.Sound) :
    new.Sound := by
  obtain ⟨attempt, context, reservation, claim, debt, policy⟩ := same
  constructor
  · rw [reservation, context]
    exact sound.reservation
  · rw [reservation]
    exact sound.charged
  · rw [debt, context, reservation]
    exact sound.debt
  · rw [attempt]
    exact sound.unsent

theorem Change.not_admitted {kind : Kind} (change : Change kind old new) :
    new.attempt.state ≠ .admitted := by
  cases change with
  | dispatch => exact nofun
  | settle actual outcome =>
    cases success : outcome.success <;> simp [ToolAttempt.acknowledge, success]
  | releaseAdmission => exact nofun
  | lose => exact nofun
  | hold owner unknown =>
    cases owner <;> simp [ToolAttempt.hold, ToolAttempt.letGo, unknown]
  | recover evidence =>
    by_cases succeeded : evidence.outcome = .succeeded <;>
      simp [ToolAttempt.recover, succeeded]
  | expire => exact nofun
  | violate => exact nofun
  | compensateUnresolved stamp ref inserted terminal =>
    cases terminal <;> exact nofun
  | compensateUnknown stamp ref inserted terminal =>
    cases terminal <;> exact nofun

theorem Change.sound {kind : Kind} {old new : Rows} (change : Change kind old new)
    (sound : old.Sound) : new.Sound := by
  have kept := change.immutable
  refine ⟨?_, ?_, ?_, fun admitted => absurd admitted change.not_admitted⟩
  · rw [kept.2.1, kept.1]
    exact sound.reservation
  · rw [kept.2.2.1]
    exact sound.charged
  · rw [kept.1, kept.2.2.2.2.1]
    cases change with
    | lose now debt running reserved bound opened =>
      rcases opened with ⟨_, _, rfl⟩ | ⟨_, rfl⟩
      · rintro _ ⟨⟩
        exact ⟨rfl, rfl⟩
      · exact sound.debt
    | compensateUnresolved stamp ref inserted terminal dispatchState code resultRef debt _ owed =>
      rintro _ ⟨⟩
      exact sound.debt debt owed
    | compensateUnknown stamp ref inserted terminal code resultRef debt _ _ _ owed =>
      rintro _ ⟨⟩
      exact sound.debt debt owed
    | _ => exact sound.debt

/-- Every attempt has all its rows or none, and evidence names the attempt it is for. -/
structure Database.WellFormed (db : Database) : Prop where
  governed : ∀ id, (∃ rows, db.Holds id rows ∧ rows.Sound) ∨ db.Absent id
  inbox : ∀ ref row, db.evidence.get ref = some row →
    ∃ rows, db.Holds row.attemptId rows ∧ row.BoundTo rows

theorem Database.migrated_wellFormed (manifests : List String) :
    (Database.migrated manifests).WellFormed where
  governed _ := .inr ⟨rfl, rfl, rfl, rfl, rfl⟩
  inbox ref row found := by cases found

theorem Database.WellFormed.sound {db : Database} (formed : db.WellFormed) {id : UUID}
    {rows : Rows} (held : db.Holds id rows) : rows.Sound := by
  rcases formed.governed id with ⟨other, also, sound⟩ | absent
  · exact held.unique also ▸ sound
  · exact (absent.not_holds held).elim

theorem Database.WellFormed.holds_of_attempt (formed : db.WellFormed) {attempt : ToolAttempt}
    (found : db.attempts.get id = some attempt) :
    ∃ rows, db.Holds id rows ∧ rows.attempt = attempt := by
  rcases formed.governed id with ⟨rows, held, _⟩ | absent
  · exact ⟨rows, held, Option.some.inj (held.attempt.symm.trans found)⟩
  · cases absent.attempt.symm.trans found

theorem Database.WellFormed.holds_of_context (formed : db.WellFormed) {context : AdmissionContext}
    (found : db.contexts.get id = some context) :
    ∃ rows, db.Holds id rows ∧ rows.context = context := by
  rcases formed.governed id with ⟨rows, held, _⟩ | absent
  · exact ⟨rows, held, Option.some.inj (held.context.symm.trans found)⟩
  · cases absent.context.symm.trans found

theorem Database.WellFormed.holds_of_reservation (formed : db.WellFormed)
    {reservation : BudgetReservation} (found : db.reservations.get id = some reservation) :
    ∃ rows, db.Holds id rows ∧ rows.reservation = reservation := by
  rcases formed.governed id with ⟨rows, held, _⟩ | absent
  · exact ⟨rows, held, Option.some.inj (held.reservation.symm.trans found)⟩
  · cases absent.reservation.symm.trans found

/-- Evidence stays bound to its attempt: a dispatched attempt keeps its backend request. -/
theorem InboxEvidence.BoundTo.forward {row : InboxEvidence} {kind : Kind} (bound : row.BoundTo old)
    (sound : old.Sound) (step : old.Same new ∨ Change kind old new) : row.BoundTo new := by
  rcases step with same | change
  · exact ⟨bound.window.trans (by rw [same.context]), bound.owner.trans (by rw [same.context]),
      by rw [same.attempt]; exact bound.request⟩
  · have context := change.immutable.1
    refine ⟨bound.window.trans (by rw [context]), bound.owner.trans (by rw [context]), ?_⟩
    have request := bound.request
    cases change with
    | dispatch backendRequestId leaseUntil admitted =>
      rw [sound.unsent admitted] at request
      cases request
    | settle =>
      simp only [ToolAttempt.acknowledge, request, Option.getD_some]
    | hold owner => cases owner <;> exact request
    | _ => exact request

structure InboxEvidence.SameScope (old new : InboxEvidence) : Prop where
  attempt : new.attemptId = old.attemptId
  window : new.budgetWindowId = old.budgetWindowId
  owner : new.backendOwner = old.backendOwner
  request : new.backendRequestId = old.backendRequestId

def InboxEvidence.Progresses (old new : InboxEvidence) : Prop :=
  ∃ evidenceState consumedAt, new = { old with evidenceState, consumedAt }

namespace InboxEvidence.Progresses

variable {a b c : InboxEvidence}

theorem refl (row : InboxEvidence) : row.Progresses row := ⟨row.evidenceState, row.consumedAt, rfl⟩

theorem trans (first : a.Progresses b) (second : b.Progresses c) : a.Progresses c := by
  obtain ⟨_, _, rfl⟩ := first
  obtain ⟨state, consumed, rfl⟩ := second
  exact ⟨state, consumed, rfl⟩

theorem sameScope (progress : a.Progresses b) : a.SameScope b := by
  obtain ⟨_, _, rfl⟩ := progress
  exact ⟨rfl, rfl, rfl, rfl⟩

end InboxEvidence.Progresses

theorem Move.evidence_origin {kind : Kind} {before after : Database}
    (move : Move kind before after) {ref : UUID} {row : InboxEvidence}
    (found : after.evidence.get ref = some row) :
    (∃ old, before.evidence.get ref = some old ∧ old.SameScope row) ∨
      kind = .ingest ∧ ∃ rows, before.Holds row.attemptId rows ∧ row.BoundTo rows := by
  have kept : ∀ {table : Table UUID ownerEvidenceInbox}, table = before.evidence →
      table.get ref = some row → ∃ old, before.evidence.get ref = some old ∧ old.SameScope row := by
    rintro table rfl same
    exact ⟨row, same, rfl, rfl, rfl, rfl⟩
  have rewritten : ∀ {key : UUID} {old new : InboxEvidence} {table : Table UUID ownerEvidenceInbox},
      before.evidence.get key = some old → before.evidence.Puts key new table → old.SameScope new →
      table.get ref = some row →
      ∃ old, before.evidence.get ref = some old ∧ old.SameScope row := by
    intro key old new table was put scope now
    by_cases same : ref = key
    · subst same
      obtain rfl := Option.some.inj (put.get_self.symm.trans now)
      exact ⟨old, was, scope⟩
    · exact ⟨row, (put.get_of_ne same).symm.trans now, rfl, rfl, rfl, rfl⟩
  cases move with
  | admission admits => exact .inl (kept admits.evidence found)
  | rewrite rewrites => exact .inl (kept rewrites.evidence found)
  | ingest key new evidence held bound fresh verified put =>
    by_cases same : ref = key
    · subst same
      obtain rfl := Option.some.inj (put.get_self.symm.trans found)
      exact .inr ⟨rfl, _, held, bound⟩
    · exact .inl ⟨row, (put.get_of_ne same).symm.trans found, rfl, rfl, rfl, rfl⟩
  | violate stamp was verified touch change put objects adjustments =>
    exact .inl (rewritten was put ⟨rfl, rfl, rfl, rfl⟩ found)
  | compensate stamp was verified touch change put counted unadjusted adjusts adjustments =>
    exact .inl (rewritten was put ⟨rfl, rfl, rfl, rfl⟩ found)
  | _ => exact .inl (kept rfl found)

theorem Admits.sound {before after : Database} (admits : Admits id req rows before after) :
    rows.Sound := by
  obtain ⟨window, limit, reserved, found, policy, -⟩ := admits.window
  unfold Store.admissionPolicy at policy
  obtain ⟨_, allowed, -⟩ := bind_eq_ok.mp policy
  have checked := ensure_eq_ok.mp allowed
  refine ⟨?_, ?_, ?_, ?_⟩
  · rw [admits.reservation]
    rfl
  · rw [admits.reservation]
    simp only [AdmissionRequest.newReservation]
    omega
  · intro debt owed
    rw [admits.debt] at owed
    cases owed
  · obtain ⟨now, attempt⟩ := admits.attempt
    rw [attempt]
    exact fun _ => rfl

theorem Move.wellFormed {kind : Kind} {before after : Database} (move : Move kind before after)
    (formed : before.WellFormed) : after.WellFormed := by
  constructor
  · intro id
    rcases formed.governed id with ⟨rows, held, sound⟩ | absent
    · obtain ⟨later, kept, same | change⟩ := move.forward held
      · exact .inl ⟨later, kept, same.sound sound⟩
      · exact .inl ⟨later, kept, change.sound sound⟩
    · rcases move.absent absent with still | ⟨_, req, rows, admits⟩
      · exact .inr still
      · exact .inl ⟨rows, admits.holds, admits.sound⟩
  · intro ref row found
    have carry : ∀ {id : UUID} {rows : Rows}, before.Holds id rows → row.BoundTo rows →
        ∃ later, after.Holds id later ∧ row.BoundTo later := by
      intro id rows held bound
      obtain ⟨later, kept, step⟩ := move.forward held
      exact ⟨later, kept, bound.forward (formed.sound held) step⟩
    rcases move.evidence_origin found with ⟨old, was, scope⟩ | ⟨-, rows, held, bound⟩
    · obtain ⟨rows, held, bound⟩ := formed.inbox ref old was
      rw [scope.attempt]
      exact carry held ⟨scope.window.trans bound.window, scope.owner.trans bound.owner,
        bound.request.trans (by rw [scope.request])⟩
    · exact carry held bound

/-! ## Totals over the reservations of a window -/

def Database.total (db : Database) (window : UUID) (share : BudgetReservation → Int) : Int :=
  db.reservations.sum fun _ reservation =>
    if reservation.budgetWindowId = window then share reservation else 0

/-- A change of one attempt moves a total by what it moves in the reservation's share. -/
theorem Touches.total {before after : Database} {kind : Kind}
    (touch : Touches id before after old new) (change : Change kind old new) (sound : old.Sound)
    (window : UUID) (share : BudgetReservation → Int) :
    after.total window share +
        (if old.context.budgetWindowId = window then share old.reservation else 0) =
      before.total window share +
        if old.context.budgetWindowId = window then share new.reservation else 0 := by
  have moved := touch.reservations.sum fun _ reservation =>
    if reservation.budgetWindowId = window then share reservation else 0
  rw [touch.held.reservation, Option.elim_some, change.immutable.2.1, sound.reservation] at moved
  exact moved

theorem Admits.total {before after : Database} (admits : Admits id req rows before after)
    (window : UUID) (share : BudgetReservation → Int) :
    after.total window share = before.total window share +
      if rows.context.budgetWindowId = window then share rows.reservation else 0 := by
  have added := admits.reservations.sum fun _ reservation =>
    if reservation.budgetWindowId = window then share reservation else 0
  rw [admits.absent.reservation, Option.elim_none, add_zero, admits.sound.reservation] at added
  exact added

/-- A reservation names a window that exists, so none names a new one. -/
theorem Database.WellFormed.total_fresh (formed : db.WellFormed) {window : UUID}
    (fresh : db.windows.get window = none) (share : BudgetReservation → Int) :
    db.total window share = 0 := by
  refine Table.sum_eq_zero fun attempt reservation stored => ?_
  obtain ⟨rows, held, rfl⟩ := formed.holds_of_reservation stored
  refine if_neg fun owner => ?_
  rw [(formed.sound held).reservation] at owner
  cases fresh.symm.trans (owner ▸ held.window)

/-! ## What stays for good -/

/-- What an attempt was admitted with. -/
structure Rows.Kept (old new : Rows) : Prop where
  context : new.context = old.context
  toolCalls : new.reservation.reservedToolCalls = old.reservation.reservedToolCalls
  resultBytes : new.reservation.reservedResultBytes = old.reservation.reservedResultBytes
  distinctObjects :
    new.reservation.reservedDistinctObjectsMax = old.reservation.reservedDistinctObjectsMax
  claimKey : new.claim.key = old.claim.key
  requestHash : new.claim.requestHash = old.claim.requestHash
  policy : new.window.policyRef = old.window.policyRef
  sent : old.attempt.state ≠ .admitted → new.attempt.state ≠ .admitted

/-- A later database of the same run: every attempt is still there as admitted. -/
def Database.Extends (earlier later : Database) : Prop :=
  ∀ id rows, earlier.Holds id rows → ∃ kept, later.Holds id kept ∧ rows.Kept kept

theorem Database.Extends.refl (db : Database) : db.Extends db :=
  fun _ rows held => ⟨rows, held, rfl, rfl, rfl, rfl, rfl, rfl, rfl, id⟩

theorem Rows.Kept.trans {a b c : Rows} (first : a.Kept b) (second : b.Kept c) : a.Kept c :=
  ⟨second.context.trans first.context, second.toolCalls.trans first.toolCalls,
    second.resultBytes.trans first.resultBytes,
    second.distinctObjects.trans first.distinctObjects, second.claimKey.trans first.claimKey,
    second.requestHash.trans first.requestHash, second.policy.trans first.policy,
    second.sent ∘ first.sent⟩

theorem Database.Extends.trans {a b c : Database} (first : a.Extends b) (second : b.Extends c) :
    a.Extends c := by
  intro id rows held
  obtain ⟨middle, there, kept⟩ := first id rows held
  obtain ⟨last, arrived, also⟩ := second id middle there
  exact ⟨last, arrived, kept.trans also⟩

theorem Move.extends {kind : Kind} {before after : Database} (move : Move kind before after) :
    before.Extends after := by
  intro id rows held
  obtain ⟨later, kept, same | change⟩ := move.forward held
  · refine ⟨later, kept, same.context, ?_, ?_, ?_, ?_, ?_, same.policy, ?_⟩
    · rw [same.reservation]
    · rw [same.reservation]
    · rw [same.reservation]
    · rw [same.claim]
    · rw [same.claim]
    · rw [same.attempt]
      exact fun sent => sent
  · obtain ⟨context, _, calls, bytes, objects, key, hash, policy⟩ := change.immutable
    exact ⟨later, kept, context, calls, bytes, objects, key, hash, policy,
      fun _ => change.not_admitted⟩

/-- A later database, from which attempts may have been removed since. -/
def Database.Precedes (earlier later : Database) : Prop :=
  ∀ id rows, earlier.Holds id rows →
    (∃ kept, later.Holds id kept ∧ rows.Kept kept) ∨ later.Absent id

theorem Database.Extends.precedes {earlier later : Database} (grown : earlier.Extends later) :
    earlier.Precedes later :=
  fun id rows held => .inl (grown id rows held)

theorem Database.Precedes.holds {earlier later : Database} (precedes : earlier.Precedes later)
    {attempt : ToolAttempt} (held : earlier.Holds id rows)
    (found : later.attempts.get id = some attempt) :
    ∃ kept, later.Holds id kept ∧ rows.Kept kept := by
  rcases precedes id rows held with still | absent
  · exact still
  · cases absent.attempt.symm.trans found

/-- A chain of moves whose kinds satisfy a predicate. -/
def Moves (allowed : Kind → Prop) : Database → Database → Prop :=
  Relation.ReflTransGen fun before after => ∃ kind, allowed kind ∧ Move kind before after

theorem Moves.trans {a b c : Database} (first : Moves allowed a b) (second : Moves allowed b c) :
    Moves allowed a c :=
  Relation.ReflTransGen.trans first second

theorem Moves.single {kind : Kind} {before after : Database} (move : Move kind before after)
    (member : allowed kind) : Moves allowed before after :=
  Relation.ReflTransGen.single ⟨kind, member, move⟩

/-- A reflexive and transitive relation that every move from a well-formed database
respects relates the ends of a chain. -/
theorem Moves.induction {allowed : Kind → Prop} {R : Database → Database → Prop}
    {before after : Database} (moves : Moves allowed before after) (formed : before.WellFormed)
    (refl : ∀ db, R db db) (trans : ∀ a b c, R a b → R b c → R a c)
    (move : ∀ kind a b, allowed kind → a.WellFormed → Move kind a b → R a b) :
    after.WellFormed ∧ R before after := by
  induction moves with
  | refl => exact ⟨formed, refl before⟩
  | tail _ last ih =>
    obtain ⟨kind, member, moved⟩ := last
    exact ⟨moved.wellFormed ih.1, trans _ _ _ ih.2 (move kind _ _ member ih.1 moved)⟩

theorem Moves.invariant {P : Database → Prop} {before after : Database}
    (moves : Moves allowed before after) (formed : before.WellFormed) (start : P before)
    (move : ∀ kind a b, allowed kind → a.WellFormed → Move kind a b → P a → P b) : P after :=
  (moves.induction (R := fun a b => P a → P b) formed (fun _ holds => holds)
    (fun _ _ _ first second holds => second (first holds)) move).2 start

theorem Moves.extends {before after : Database} (moves : Moves allowed before after)
    (formed : before.WellFormed) : before.Extends after :=
  (moves.induction formed Database.Extends.refl (fun _ _ _ => Database.Extends.trans)
    fun _ _ _ _ _ move => move.extends).2

theorem Moves.absent {allowed : Kind → Prop} {before after : Database}
    (moves : Moves allowed before after) (formed : before.WellFormed)
    (quiet : ∀ kind, allowed kind → kind ≠ .admission) {id : UUID} (absent : before.Absent id) :
    after.Absent id := by
  refine moves.invariant (P := fun db => db.Absent id) formed absent ?_
  intro kind a b member _ move gone
  rcases move.absent gone with still | ⟨admission, -⟩
  · exact still
  · exact absurd admission (quiet kind member)

theorem Moves.precedes {allowed : Kind → Prop} {earlier before after : Database}
    (moves : Moves allowed before after) (formed : before.WellFormed)
    (quiet : ∀ kind, allowed kind → kind ≠ .admission) (precedes : earlier.Precedes before) :
    earlier.Precedes after := by
  intro id rows held
  rcases precedes id rows held with ⟨kept, there, same⟩ | none
  · obtain ⟨later, arrived, also⟩ := moves.extends formed id kept there
    exact .inl ⟨later, arrived, same.trans also⟩
  · exact .inr (moves.absent formed quiet none)

theorem Moves.wellFormed {before after : Database} (moves : Moves allowed before after)
    (formed : before.WellFormed) : after.WellFormed :=
  (moves.induction (R := fun _ _ => True) formed (fun _ => trivial)
    (fun _ _ _ _ _ => trivial) fun _ _ _ _ _ _ => trivial).1

end OufMcp.Ledger
