import OufMcp.Ledger.Steps

/-!
# Conservation of the budget ledger

Five counters of a window are sums over its reservations.  Each change of an
attempt moves a counter by what it moves in the reservation's share of it;
settlement does so exactly for a reservation that recovery has not yet charged.
-/

namespace OufMcp.Ledger

open Relational Transition

/-- The counters of a window that its reservations account for. -/
inductive Counter where
  | reservedCalls
  | reservedBytes
  | reservedObjects
  | consumedCalls
  | consumedBytes
  deriving DecidableEq, Repr

def BudgetWindow.counter (window : BudgetWindow) : Counter → Int
  | .reservedCalls => window.reservedToolCalls
  | .reservedBytes => window.reservedResultBytes
  | .reservedObjects => window.reservedDistinctObjects
  | .consumedCalls => window.consumedToolCalls
  | .consumedBytes => window.consumedResultBytes

/-- What a reservation contributes to each counter of its window. -/
def BudgetReservation.share (reservation : BudgetReservation) : Counter → Int
  | .reservedCalls =>
    if reservation.state = .reserved ∨ reservation.state = .unknown then
      reservation.reservedToolCalls
    else 0
  | .reservedBytes =>
    if reservation.state = .reserved ∨ reservation.state = .unknown then
      reservation.reservedResultBytes
    else 0
  | .reservedObjects =>
    if reservation.state = .reserved then reservation.reservedDistinctObjectsMax else 0
  | .consumedCalls =>
    if reservation.state = .reconciled then reservation.actualToolCalls.getD 0 else 0
  | .consumedBytes =>
    if reservation.state = .reconciled then reservation.actualResultBytes.getD 0 else 0

/-- A reservation that settlement can charge without charging twice. -/
def BudgetReservation.Settleable (reservation : BudgetReservation) : Prop :=
  reservation.state = .reserved ∨
    (reservation.state = .unknown ∧ reservation.reservedDistinctObjectsMax = 0)

instance (reservation : BudgetReservation) : Decidable reservation.Settleable :=
  inferInstanceAs (Decidable (_ ∨ _))

/-- The window moves by what the reservation's shares move. -/
def Balanced (old new : Rows) : Prop := ∀ counter : Counter,
  new.window.counter counter + old.reservation.share counter =
    old.window.counter counter + new.reservation.share counter

attribute [local simp] BudgetWindow.counter BudgetReservation.share BudgetWindow.release
  BudgetWindow.consume BudgetWindow.settle BudgetWindow.recover BudgetWindow.moveToDebt
  BudgetWindow.compensate BudgetReservation.reconciled BudgetReservation.releaseUnsent
  BudgetReservation.lose BudgetReservation.recover BudgetReservation.expire
  BudgetReservation.releaseProven

theorem Change.balanced {kind : Kind} {old new : Rows} (change : Change kind old new)
    (other : ∀ actual, kind ≠ .settle actual) : Balanced old new := by
  intro counter
  cases change with
  | settle actual => exact absurd rfl (other actual)
  | recover evidence stamp unknown uncertain lost calls bytes objects blocked =>
    by_cases sent : evidence.outcome = .notDispatched <;> cases counter <;>
      simp [uncertain, sent, OwnerEvidence.consumeCalls, OwnerEvidence.consumeBytes]
  | _ => cases counter <;> simp [*]

/-- Settlement is balanced exactly on settleable reservations. -/
theorem Change.settle_balanced_iff {actual : Cost} {old new : Rows}
    (change : Change (.settle actual) old new)
    (charged : old.reservation.reservedToolCalls ≠ 0) :
    Balanced old new ↔ old.reservation.Settleable := by
  obtain ⟨_, outcome, stamp, unsettled, objects⟩ := change
  constructor
  · intro balanced
    have calls := balanced .reservedCalls
    have reserved := balanced .reservedObjects
    unfold BudgetReservation.Settleable
    cases state : old.reservation.state <;> simp_all
  · rintro (state | ⟨state, zero⟩) counter <;> cases counter <;> simp [*]

/-! ## The whole ledger -/

/-- What the reservations of a window contribute to one of its counters. -/
def Database.shares (db : Database) (window : UUID) (counter : Counter) : Int :=
  db.total window fun reservation => reservation.share counter

/-- Every counter of every window is the total of its reservations' shares. -/
def Database.Conserved (db : Database) : Prop :=
  ∀ id window, db.windows.get id = some window →
    ∀ counter, window.counter counter = db.shares id counter

theorem Database.migrated_conserved (manifests : List String) :
    (Database.migrated manifests).Conserved := by
  intro id window found
  cases found

theorem Touches.conserved {id : UUID} {before after : Database} {kind : Kind} {old new : Rows}
    (touch : Touches id before after old new) (change : Change kind old new)
    (balanced : Balanced old new) (formed : before.WellFormed) (conserved : before.Conserved) :
    after.Conserved := by
  intro key window found counter
  have moved := touch.total change (formed.sound touch.held) key fun reservation =>
    reservation.share counter
  unfold Database.shares
  by_cases same : old.context.budgetWindowId = key
  · subst same
    obtain rfl := Option.some.inj (touch.windows.get_self.symm.trans found)
    have sum := conserved _ _ touch.held.window counter
    have delta := balanced counter
    unfold Database.shares at sum
    simp only [if_true] at moved
    omega
  · rw [touch.windows.get_of_ne (Ne.symm same)] at found
    simp only [if_neg same, add_zero] at moved
    rw [moved]
    exact conserved key window found counter

theorem Admits.conserved {id : UUID} {req : AdmissionRequest} {rows : Rows}
    {before after : Database} (admits : Admits id req rows before after)
    (conserved : before.Conserved) : after.Conserved := by
  intro key window found counter
  obtain ⟨earlier, limit, reserved, was, -⟩ := admits.window
  unfold Database.shares
  rw [admits.total]
  by_cases same : rows.context.budgetWindowId = key
  · subst same
    obtain rfl := Option.some.inj (admits.windows.get_self.symm.trans found)
    have sum := conserved _ _ was counter
    unfold Database.shares at sum
    rw [if_pos rfl, ← sum, reserved, admits.reservation]
    cases counter <;> simp [AdmissionRequest.newReservation, BudgetWindow.reserve]
  · rw [admits.windows.get_of_ne (Ne.symm same)] at found
    rw [if_neg same, add_zero]
    exact conserved key window found counter

theorem Move.conserved {kind : Kind} {before after : Database} (move : Move kind before after)
    (other : ∀ actual, kind ≠ .settle actual) (formed : before.WellFormed)
    (conserved : before.Conserved) : after.Conserved := by
  cases move with
  | openWindow key window windows fresh unused put =>
    intro id found here counter
    by_cases same : id = key
    · subst same
      obtain rfl := Option.some.inj (put.get_self.symm.trans here)
      have vacant : Database.shares { before with windows } id counter = 0 :=
        formed.total_fresh fresh _
      rw [vacant]
      cases counter <;> simp [unused.1, unused.2, unused.3, unused.4, unused.5]
    · exact conserved id found ((put.get_of_ne same).symm.trans here) counter
  | admission admits => exact admits.conserved conserved
  | rewrite rewrites =>
    exact rewrites.touch.conserved rewrites.change (rewrites.change.balanced other) formed
      conserved
  | violate stamp found verified touch change put objects adjustments =>
    exact touch.conserved change (change.balanced other) formed conserved
  | compensate stamp found verified touch change put counted unadjusted adjusts adjustments =>
    exact touch.conserved change (change.balanced other) formed conserved
  | _ => exact conserved

/-! ## Runs -/

/-- A step that settles each reservation before recovery charges it: `Reconcile` finds
its reservation already reconciled or settleable, and no call asks for a negative size. -/
def State.settlesInTime (state : State) : Event → Bool
  | .begin _ call _ => decide (0 ≤ call.maximum.resultBytes)
  | .reconcile caller _ =>
    match state.calls caller with
    | .replied id _ _ => (state.db.reservations.get id).all fun reservation =>
      decide (reservation.state = .reconciled ∨ reservation.Settleable)
    | _ => true
  | _ => true

/-- The reserved counters of a conserved ledger are not negative. -/
theorem Database.Conserved.reserved_nonneg {db : Database} (conserved : db.Conserved)
    (formed : db.WellFormed)
    (sized : ∀ id rows, db.Holds id rows → 0 ≤ rows.reservation.reservedResultBytes)
    {id : UUID} {window : BudgetWindow} (found : db.windows.get id = some window) :
    0 ≤ window.reservedToolCalls ∧ 0 ≤ window.reservedResultBytes ∧
      0 ≤ window.reservedDistinctObjects := by
  have total : ∀ counter, (∀ attempt rows, db.Holds attempt rows →
      0 ≤ rows.reservation.share counter) → 0 ≤ window.counter counter := by
    intro counter nonneg
    rw [conserved id window found counter]
    unfold Database.shares Database.total
    refine Table.sum_nonneg fun attempt reservation stored => ?_
    obtain ⟨rows, held, rfl⟩ := formed.holds_of_reservation stored
    split
    · exact nonneg attempt rows held
    · exact le_refl 0
  refine ⟨total .reservedCalls ?_, total .reservedBytes ?_, total .reservedObjects ?_⟩ <;>
    intro attempt rows held <;> simp only [BudgetReservation.share] <;> split
  · have charged := (formed.sound held).charged
    omega
  · exact le_refl 0
  · exact sized attempt rows held
  · exact le_refl 0
  · exact BudgetReservation.objects_nonneg held.reservation
  · exact le_refl 0

/-- In every run whose steps settle in time the ledger is conserved, and no reserved
counter is negative. -/
theorem ledger_conserved {state : State}
    (reached : runtime.Reachable (fun state event => state.settlesInTime event = true) state) :
    state.db.Conserved ∧ ∀ id window, state.db.windows.get id = some window →
      0 ≤ window.reservedToolCalls ∧ 0 ≤ window.reservedResultBytes ∧
        0 ≤ window.reservedDistinctObjects := by
  have conserved : state.db.Conserved := by
    refine reachable_invariant (fun manifests _ => Database.migrated_conserved manifests)
      ?_ ?_ ?_ reached
    · intro kind before after usual formed move conserved
      refine move.conserved ?_ formed conserved
      rintro actual rfl
      exact usual
    · intro state caller stamp id actual outcome after old new valid allowed phase rewrites
        conserved
      have held := rewrites.touch.held
      have charged := (valid.formed.sound held).charged
      have unsettled : old.reservation.state ≠ .reconciled := by
        cases rewrites.change
        assumption
      simp only [State.settlesInTime, phase, held.reservation, Option.all_some, decide_eq_true_eq,
        unsettled, false_or] at allowed
      exact rewrites.touch.conserved rewrites.change
        ((rewrites.change.settle_balanced_iff (by omega)).mpr allowed) valid.formed conserved
    · intro state seen stamp id ref revision after valid allowed violation row move conserved
      exact move.conserved (fun _ impossible => by cases impossible) valid.formed conserved
  refine ⟨conserved, fun id window found => ?_⟩
  refine conserved.reserved_nonneg (reachable_valid reached).formed (fun id rows held => ?_) found
  obtain ⟨call, sized, owns⟩ := (reachable_owned (P := fun call => 0 ≤ call.maximum.resultBytes)
    (fun _ _ _ _ allowed => of_decide_eq_true allowed) reached).2 id rows held
  exact owns.bytes ▸ sized

def settledInTime : List Event :=
  [.begin 0 (searchCall "first" "one" 1) 1, .reserve 0 0 ⟨10, 11, 0⟩, .dispatch 0 0 "backend",
    .execute 0 shortReply, .reconcile 0 0]

theorem ledger_conserved_settledInTime :
    ∃ state, replayTrace State.settlesInTime settledInTime = some state ∧
      state.db.shares 10 .consumedBytes = 10 ∧ state.db.Conserved := by
  obtain ⟨state, replayed, reached, checked⟩ := replayTrace_reachable State.settlesInTime
    settledInTime (fun state => decide (state.db.shares 10 .consumedBytes = 10)) (by decide +kernel)
  exact ⟨state, replayed, of_decide_eq_true checked, (ledger_conserved reached).1⟩

/-- The first call replies after a worker has lost it; a second call holds an object. -/
def settledAfterLoss : List Event :=
  [.begin 0 (searchCall "first" "one" 1) 1, .reserve 0 0 ⟨10, 11, 0⟩, .dispatch 0 0 "backend",
    .execute 0 shortReply, .begin 1 (searchCall "second" "two" 1) 2, .reserve 1 1000 ⟨20, 21, 0⟩,
    .markStaleAndClaim 99 99 0 (10 * second) (-1) "worker" second 5 [], .reconcile 0 0]

/-- Settlement after the loss gives back an object that has already moved to the debt:
the window reserves none, and the second call still holds one. -/
theorem settledAfterLoss_not_conserved :
    ∃ state, replayTrace (fun _ _ => true) settledAfterLoss = some state ∧
      runtime.Reachable System.always state ∧ ¬ state.db.Conserved := by
  obtain ⟨state, replayed, reached, checked⟩ := replayTrace_reachable (fun _ _ => true)
    settledAfterLoss (fun state => (state.db.windows.get 10).any fun (window : BudgetWindow) =>
      decide (window.counter .reservedObjects = 0 ∧ state.db.shares 10 .reservedObjects = 1))
    (by decide +kernel)
  refine ⟨state, replayed, reached.mono fun _ _ _ => trivial, fun conserved => ?_⟩
  obtain ⟨window, found, values⟩ := (Option.any_eq_true _ _).mp checked
  have sum := conserved 10 window found .reservedObjects
  have differ := of_decide_eq_true values
  omega

end OufMcp.Ledger
