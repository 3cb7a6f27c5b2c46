import OufMcp.Ledger.Retention

/-!
# What a purge deletes

The deletes of `purge_terminal_attempt_graph` filter on the states of the rows, so a
picked attempt could leave a row behind that its foreign key would catch.  Here the
two halves of the purge are shown to succeed, with what they delete and what they
keep, on databases where every picked attempt is closed and evidence is cited by
rows of its own attempt only.
-/

namespace OufMcp.Ledger

open Relational Transition

variable {id : UUID} {before : Time}

/-! ## Closed attempts and citations -/

/-- Debts and adjustments cite evidence of their own attempt. -/
structure Database.Charged (db : Database) : Prop where
  debts : ∀ id debt ref, db.debts.get id = some debt → debt.ownerEvidenceRef = some ref →
    db.Names ref id
  adjustments : ∀ key row, db.adjustments.get key = some row →
    db.Names row.ownerEvidenceRef row.attemptId

variable {db : Database}

/-- Every row that cites a piece of evidence belongs to the attempt the evidence is for. -/
structure Database.Cited (db : Database) : Prop extends db.Charged where
  incidents : ∀ key row, db.incidents.get key = some row → db.Names row.evidenceRef row.attemptId

theorem Database.Names.attempt {ref id : UUID} {row : InboxEvidence} (names : db.Names ref id)
    (found : db.evidence.get ref = some row) : row.attemptId = id := by
  obtain ⟨other, stored, same⟩ := names
  obtain rfl := Option.some.inj (stored.symm.trans found)
  exact same

def ReservationState.closed (state : ReservationState) : Prop :=
  state = .reconciled ∨ state = .released

/-- A finished attempt has settled its reservation or still owes for its objects, and so
has one whose hold ended. -/
structure Rows.Closed (rows : Rows) : Prop where
  finished : rows.attempt.state.terminal = true → rows.reservation.state.closed ∨
    ∃ debt, rows.debt = some debt ∧ debt.debtState = .active
  unresolved : rows.attempt.state = .unresolved → rows.reservation.state.closed

/-- An attempt as the purge picks it. -/
structure Database.Expired (db : Database) (before : Time) (id : UUID) : Prop where
  finished : ∃ attempt completed, db.attempts.get id = some attempt ∧
    (attempt.state = .succeeded ∨ attempt.state = .failed) ∧
    attempt.completedAt = some completed ∧ completed < before
  unaudited : ∀ event ∈ db.audit, event.attemptId ≠ some id
  spent : ∀ ref row, db.evidence.get ref = some row → row.attemptId = id →
    row.evidenceState ≠ .verified
  resolved : ∀ debt, db.debts.get id = some debt → debt.debtState ≠ .active

theorem AttemptState.terminal_iff {state : AttemptState} :
    state.terminal = true ↔ state = .succeeded ∨ state = .failed := by
  cases state <;> simp [AttemptState.terminal]

theorem purgeable_expired {attempt : ToolAttempt} (found : db.attempts.get id = some attempt)
    (picked : Store.purgeable db before id attempt = true) : db.Expired before id := by
  simp only [Store.purgeable, Bool.and_eq_true, Bool.not_eq_true', Table.any_eq_false,
    List.any_eq_false, decide_eq_true_eq, Option.any_eq_true, Bool.and_eq_false_iff,
    decide_eq_false_iff_not, AttemptState.terminal_iff] at picked
  obtain ⟨⟨⟨⟨⟨completed, stamp, early⟩, finished⟩, unaudited⟩, spent⟩, resolved⟩ := picked
  refine ⟨⟨attempt, completed, found, finished, stamp, early⟩, unaudited, ?_, ?_⟩
  · intro ref row stored mine
    exact (spent ref row stored).resolve_left (not_not_intro mine)
  · intro debt stored
    exact (resolved id debt stored).resolve_left (not_not_intro rfl)

theorem selectPurgeable_expired {limit : Nat} {locked : List UUID}
    (picked : id ∈ Store.selectPurgeable db before limit locked) : db.Expired before id := by
  obtain ⟨⟨key, attempt⟩, member, rfl⟩ := List.mem_map.mp picked
  obtain ⟨found, wanted⟩ := Table.mem_select.mp (mem_of_mem_firstBy member)
  exact purgeable_expired found (Bool.and_eq_true_iff.mp wanted).1

/-! ## The rows of the picked attempts -/

/-- The rows of the attempts in `gone` are deleted, and no others. -/
structure Prunes (gone : List UUID) (db after : Database) : Prop where
  attempts : db.attempts.Restricts after.attempts fun id _ => id ∉ gone
  contexts : db.contexts.Restricts after.contexts fun id _ => id ∉ gone
  reservations : db.reservations.Restricts after.reservations fun id _ => id ∉ gone
  claims : db.claims.Restricts after.claims fun id _ => id ∉ gone
  debts : db.debts.Restricts after.debts fun id _ => id ∉ gone
  evidence : db.evidence.Restricts after.evidence fun _ row => row.attemptId ∉ gone
  adjustments : db.adjustments.Restricts after.adjustments fun _ row => row.attemptId ∉ gone
  incidents : db.incidents.Restricts after.incidents fun _ row => row.attemptId ∉ gone
  audit : after.audit = db.audit
  windows : after.windows = db.windows
  groups : after.groups = db.groups
  guards : after.guards = db.guards
  objects : after.objects = db.objects
  activeDebt : ∀ window, after.activeDebt window = db.activeDebt window

theorem contains_eq_false {gone : List UUID} : gone.contains id = false ↔ id ∉ gone := by
  rw [← Bool.not_eq_true, List.contains_iff_mem]

/-- A delete by attempt and state takes all rows of the attempts when none is in another state. -/
theorem contains_and_eq_false {gone : List UUID} {p : Prop} [Decidable p] (always : id ∈ gone → p) :
    (gone.contains id && decide p) = false ↔ id ∉ gone := by
  rw [Bool.and_eq_false_iff, contains_eq_false, decide_eq_false_iff_not]
  constructor
  · rintro (outside | never)
    · exact outside
    · exact fun member => never (always member)
  · exact .inl

theorem deleteAttempts_ok {picked : List UUID} (cited : db.Cited)
    (expired : ∀ id ∈ picked, db.Expired before id)
    (closed : ∀ id ∈ picked, ∀ reservation, db.reservations.get id = some reservation →
      reservation.state.closed) :
    ∃ after, Store.deleteAttempts db picked = .ok after ∧ Prunes picked db after := by
  have incidents : db.incidents.Restricts (db.incidents.without fun _ row =>
      picked.contains row.attemptId) fun _ row => row.attemptId ∉ picked :=
    Table.restricts_without fun _ _ _ => contains_eq_false
  have adjustments : db.adjustments.Restricts (db.adjustments.without fun _ row =>
      picked.contains row.attemptId) fun _ row => row.attemptId ∉ picked :=
    Table.restricts_without fun _ _ _ => contains_eq_false
  have debts : db.debts.Restricts (db.debts.without fun id debt =>
      picked.contains id && decide (debt.debtState = .resolved)) fun id _ => id ∉ picked := by
    refine Table.restricts_without fun id debt stored => contains_and_eq_false fun member => ?_
    have owed := (expired id member).resolved debt stored
    cases state : debt.debtState with
    | active => exact absurd state owed
    | resolved => rfl
  have evidence : db.evidence.Restricts (db.evidence.without fun _ row =>
      picked.contains row.attemptId &&
        decide (row.evidenceState = .consumed ∨ row.evidenceState = .quarantined))
      fun _ row => row.attemptId ∉ picked := by
    refine Table.restricts_without fun ref row stored => contains_and_eq_false fun member => ?_
    have used := (expired _ member).spent ref row stored rfl
    cases state : row.evidenceState with
    | verified => exact absurd state used
    | consumed => exact .inl rfl
    | quarantined => exact .inr rfl
  have reservations : db.reservations.Restricts (db.reservations.without fun id reservation =>
      picked.contains id &&
        decide (reservation.state = .reconciled ∨ reservation.state = .released))
      fun id _ => id ∉ picked :=
    Table.restricts_without fun id reservation stored =>
      contains_and_eq_false fun member => closed id member reservation stored
  have byAttempt {ρ : Type} {schema : Schema ρ} (table : Table UUID schema) :
      table.Restricts (table.without fun id _ => picked.contains id) fun id _ => id ∉ picked :=
    Table.restricts_without fun _ _ _ => contains_eq_false
  unfold Store.deleteAttempts
  simp only [bind_eq_ok, demand_eq_ok, pure_eq_ok]
  refine ⟨_, ⟨_, Table.delete?_eq_some ?uncited, _, Table.delete?_eq_some ?unscoped, _,
    Table.delete?_eq_some ?unowned, rfl⟩, ?prunes⟩
  case uncited =>
    -- a row that cites the evidence is of the same attempt, so it was deleted before
    intro ref row stored taken
    have member : row.attemptId ∈ picked :=
      List.contains_iff_mem.mp (Bool.and_eq_true_iff.mp taken).1
    simp only [Database.refersToEvidence, Bool.or_eq_false_iff, Table.any_eq_false,
      decide_eq_false_iff_not]
    refine ⟨⟨?_, ?_⟩, ?_⟩
    · intro id debt left cites
      obtain ⟨was, outside⟩ := (debts id debt).mp left
      exact outside ((cited.debts id debt ref was cites).attempt stored ▸ member)
    · rintro key adjustment left rfl
      obtain ⟨was, outside⟩ := (adjustments key adjustment).mp left
      exact outside ((cited.adjustments key adjustment was).attempt stored ▸ member)
    · rintro key incident left rfl
      obtain ⟨was, outside⟩ := (incidents key incident).mp left
      exact outside ((cited.incidents key incident was).attempt stored ▸ member)
  case unscoped =>
    intro id context _ taken
    have member : id ∈ picked := List.contains_iff_mem.mp taken
    simp only [Database.refersToContext, Bool.or_eq_false_iff, Table.any_eq_false,
      decide_eq_false_iff_not]
    refine ⟨⟨?_, ?_⟩, ?_⟩
    · rintro ref row left ⟨rfl, -⟩
      exact ((evidence ref row).mp left).2 member
    · rintro owner debt left ⟨rfl, -⟩
      exact ((debts owner debt).mp left).2 member
    · rintro key row left ⟨rfl, -⟩
      exact ((adjustments key row).mp left).2 member
  case unowned =>
    intro id attempt _ taken
    have member : id ∈ picked := List.contains_iff_mem.mp taken
    simp only [Database.refersToAttempt, Bool.or_eq_false_iff, Table.any_eq_false,
      List.any_eq_false, decide_eq_false_iff_not, decide_eq_true_eq]
    refine ⟨⟨⟨⟨⟨⟨(expired id member).unaudited, ?_⟩, ?_⟩, ?_⟩, ?_⟩, ?_⟩, ?_⟩
    · rintro owner context left rfl
      exact ((byAttempt db.contexts owner context).mp left).2 member
    · rintro owner reservation left rfl
      exact ((reservations owner reservation).mp left).2 member
    · rintro ref row left rfl
      exact ((evidence ref row).mp left).2 member
    · rintro owner debt left rfl
      exact ((debts owner debt).mp left).2 member
    · rintro key row left rfl
      exact ((adjustments key row).mp left).2 member
    · rintro key row left rfl
      exact ((incidents key row).mp left).2 member
  case prunes =>
    refine ⟨byAttempt db.attempts, byAttempt db.contexts, reservations, byAttempt db.claims, debts,
      evidence, adjustments, incidents, rfl, rfl, rfl, rfl, rfl, fun window => ?_⟩
    dsimp only [Database.activeDebt]
    refine Table.sum_without fun id debt _ taken => if_neg ?_
    rintro ⟨-, active⟩
    have resolved := of_decide_eq_true (Bool.and_eq_true_iff.mp taken).2
    cases active.symm.trans resolved

/-! ## Old parents -/

def Database.OpenWindow (db : Database) (before : Time) (id : UUID) : Prop :=
  ∃ window, db.windows.get id = some window ∧ before ≤ window.windowEnd

def Database.WindowUsed (db : Database) (id : UUID) : Prop :=
  (∃ attempt context, db.contexts.get attempt = some context ∧ context.budgetWindowId = id) ∨
    (∃ attempt reservation, db.reservations.get attempt = some reservation ∧
      reservation.budgetWindowId = id) ∨
    (∃ attempt debt, db.debts.get attempt = some debt ∧ debt.budgetWindowId = id) ∨
    ∃ key adjustment, db.adjustments.get key = some adjustment ∧ adjustment.budgetWindowId = id

def Database.GroupUsed (db : Database) (id : UUID) : Prop :=
  ∃ attempt context, db.contexts.get attempt = some context ∧ context.equivalenceGroupId = id

/-- Only windows, groups, guards and objects are deleted, and none that is recent or used. -/
structure Trims (before : Time) (db after : Database) : Prop where
  attempts : after.attempts = db.attempts
  contexts : after.contexts = db.contexts
  reservations : after.reservations = db.reservations
  claims : after.claims = db.claims
  debts : after.debts = db.debts
  evidence : after.evidence = db.evidence
  adjustments : after.adjustments = db.adjustments
  incidents : after.incidents = db.incidents
  audit : after.audit = db.audit
  fromWindows : ∀ id window, after.windows.get id = some window → db.windows.get id = some window
  windows : ∀ id window, db.windows.get id = some window →
    before ≤ window.windowEnd ∨ db.WindowUsed id → after.windows.get id = some window
  groups : ∀ id group, db.groups.get id = some group →
    db.OpenWindow before group.budgetWindowId ∨ db.GroupUsed id →
    after.groups.get id = some group
  guards : ∀ id guard, db.guards.get id = some guard →
    (∃ group, db.groups.get id = some group ∧ db.OpenWindow before group.budgetWindowId) ∨
      db.GroupUsed id → after.guards.get id = some guard
  objects : ∀ key object, db.objects.get key = some object →
    db.OpenWindow before key.budgetWindowId ∨ db.WindowUsed key.budgetWindowId →
    after.objects.get key = some object

theorem Database.OpenWindow.not_ended (recent : db.OpenWindow before id) :
    Store.ended db before id = false := by
  obtain ⟨window, found, late⟩ := recent
  simp [Store.ended, found, late]

theorem Database.WellFormed.context_of_reservation (formed : db.WellFormed)
    {reservation : BudgetReservation} (found : db.reservations.get id = some reservation) :
    ∃ context, db.contexts.get id = some context ∧
      context.budgetWindowId = reservation.budgetWindowId := by
  obtain ⟨rows, held, rfl⟩ := formed.holds_of_reservation found
  exact ⟨rows.context, held.context, (formed.sound held).reservation.symm⟩

theorem Database.WellFormed.context_of_evidence (formed : db.WellFormed) {ref : UUID}
    {row : InboxEvidence} (found : db.evidence.get ref = some row) :
    ∃ context, db.contexts.get row.attemptId = some context ∧
      context.budgetWindowId = row.budgetWindowId := by
  obtain ⟨rows, held, bound⟩ := formed.inbox ref row found
  exact ⟨rows.context, held.context, bound.window.symm⟩

theorem Database.WellFormed.any_of_windowUsed (formed : db.WellFormed) (used : db.WindowUsed id) :
    db.contexts.any (fun _ context => decide (context.budgetWindowId = id)) = true ∨
      db.debts.any (fun _ debt => decide (debt.budgetWindowId = id)) = true ∨
      db.adjustments.any (fun _ adjustment => decide (adjustment.budgetWindowId = id)) = true := by
  simp only [Table.any_eq_true, decide_eq_true_eq]
  rcases used with context | ⟨attempt, reservation, found, same⟩ | debt | adjustment
  · exact .inl context
  · obtain ⟨context, there, window⟩ := formed.context_of_reservation found
    exact .inl ⟨attempt, context, there, window.trans same⟩
  · exact .inr (.inl debt)
  · exact .inr (.inr adjustment)

theorem deleteParents_ok (formed : db.WellFormed) (before : Time) :
    ∃ after, Store.deleteParents db before = .ok after ∧ Trims before db after := by
  unfold Store.deleteParents
  simp only [bind_eq_ok, demand_eq_ok, pure_eq_ok]
  refine ⟨_, ⟨_, Table.delete?_eq_some ?ungrouped, _, Table.delete?_eq_some ?unused, rfl⟩, ?trims⟩
  case ungrouped =>
    intro id group _ taken
    simp only [Bool.and_eq_true, Bool.not_eq_true'] at taken
    simp only [Database.refersToGroup, Bool.or_eq_false_iff]
    exact ⟨taken.1.2, taken.2⟩
  case unused =>
    intro id window stored taken
    simp only [Bool.and_eq_true, Bool.not_eq_true', decide_eq_true_eq] at taken
    obtain ⟨⟨⟨⟨⟨early, contexts⟩, reservations⟩, debts⟩, adjustments⟩, groups⟩ := taken
    have unscoped : ∀ attempt context, db.contexts.get attempt = some context →
        context.budgetWindowId ≠ id := by
      simpa only [Table.any_eq_false, decide_eq_false_iff_not] using contexts
    simp only [Database.refersToWindow, Bool.or_eq_false_iff]
    refine ⟨⟨⟨⟨⟨⟨groups, contexts⟩, reservations⟩, ?_⟩, debts⟩, ?_⟩, adjustments⟩
    · -- evidence of the window would have kept a context of the window
      rw [Table.any_eq_false]
      intro ref row found
      obtain ⟨context, there, same⟩ := formed.context_of_evidence found
      rw [decide_eq_false_iff_not, ← same]
      exact unscoped _ context there
    · -- the objects of the window were deleted for the same reasons
      rw [Table.any_eq_false]
      intro key object found
      obtain ⟨-, kept⟩ := Table.get_without.mp found
      rw [decide_eq_false_iff_not]
      rintro rfl
      have old : Store.ended db before key.budgetWindowId = true := by
        simp [Store.ended, stored, early]
      rw [old, contexts, debts, adjustments] at kept
      cases kept
  case trims =>
    have grouped : ∀ {id : UUID}, db.GroupUsed id →
        db.contexts.any (fun _ context => decide (context.equivalenceGroupId = id)) = true := by
      rintro id ⟨attempt, context, found, same⟩
      exact Table.any_eq_true.mpr ⟨attempt, context, found, decide_eq_true same⟩
    refine ⟨rfl, rfl, rfl, rfl, rfl, rfl, rfl, rfl, rfl, ?_, ?_, ?_, ?_, ?_⟩
    · intro id window left
      exact (Table.get_without.mp left).1
    · intro id window found reason
      refine Table.get_without.mpr ⟨found, ?_⟩
      rcases reason with late | used
      · simp [Int.not_lt.mpr late]
      · rcases formed.any_of_windowUsed used with context | debt | adjustment
        · simp [context]
        · simp [debt]
        · simp [adjustment]
    · intro id group found reason
      refine Table.get_without.mpr ⟨found, ?_⟩
      rcases reason with late | used
      · simp only [Bool.and_eq_false_iff]
        exact .inl (.inl late.not_ended)
      · rw [grouped used]
        simp
    · intro id guard found reason
      refine Table.get_without.mpr ⟨found, ?_⟩
      rcases reason with ⟨group, there, late⟩ | used
      · simp [there, late.not_ended]
      · rw [grouped used]
        simp
    · intro key object found reason
      refine Table.get_without.mpr ⟨found, ?_⟩
      rcases reason with late | used
      · simp [late.not_ended]
      · rcases formed.any_of_windowUsed used with context | debt | adjustment
        · simp [context]
        · simp [debt]
        · simp [adjustment]

end OufMcp.Ledger
