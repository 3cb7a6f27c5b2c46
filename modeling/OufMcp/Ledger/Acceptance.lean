import OufMcp.Ledger.Worker

/-!
# When recovery goes through

The answer for an attempt that a worker holds is refused for what it says: it names another
request, or it decides an attempt with reserved objects, or costs more than the reservation.
That nothing else refuses it, and that nothing refuses the closing expiry, rests on three
facts about the database.  The reservation and the claim of an `UNKNOWN` attempt are
`UNKNOWN`, its guard counts it, and the counters of its window have room for what the
uncertain reservations hold.
-/

namespace OufMcp.Ledger

open Relational

/-! ## Uncertain attempts -/

def ToolAttempt.weight (attempt : ToolAttempt) : Int :=
  if attempt.state.uncertain = true then 1 else 0

theorem ToolAttempt.weight_nonneg (attempt : ToolAttempt) : 0 ≤ attempt.weight := by
  unfold ToolAttempt.weight
  split <;> decide

theorem ToolAttempt.weight_of_uncertain {attempt : ToolAttempt}
    (uncertain : attempt.state.uncertain = true) : attempt.weight = 1 := if_pos uncertain

theorem ToolAttempt.weight_of_certain {attempt : ToolAttempt}
    (certain : attempt.state.uncertain = false) : attempt.weight = 0 := by
  simp [ToolAttempt.weight, certain]

/-- The number of attempts of a group whose outcome is not known. -/
def Database.uncertain (db : Database) (group : UUID) : Int :=
  db.contexts.sum fun id context =>
    if context.equivalenceGroupId = group then
      (db.attempts.get id).elim 0 ToolAttempt.weight
    else 0

structure Database.Recoverable (db : Database) : Prop where
  lost : ∀ id rows, db.Holds id rows → rows.attempt.state = .unknown →
    rows.reservation.state = .unknown ∧ rows.claim.state = .unknown
  guarded : ∀ group guard, db.guards.get group = some guard →
    db.uncertain group ≤ guard.blockingAttempts

section Change

variable {kind : Kind} {old new : Rows}

theorem Change.lost (change : Change kind old new)
    (lost : old.attempt.state = .unknown →
      old.reservation.state = .unknown ∧ old.claim.state = .unknown)
    (unknown : new.attempt.state = .unknown) :
    new.reservation.state = .unknown ∧ new.claim.state = .unknown := by
  cases change with
  | lose => exact ⟨rfl, rfl⟩
  | hold owner before => exact lost before
  | settle actual outcome =>
    cases success : outcome.success <;> simp [ToolAttempt.acknowledge, success] at unknown
  | recover evidence =>
    by_cases succeeded : evidence.outcome = .succeeded <;>
      simp [ToolAttempt.recover, succeeded] at unknown
  | compensateUnresolved _ _ _ terminal => cases terminal <;> cases unknown
  | compensateUnknown _ _ _ terminal => cases terminal <;> cases unknown
  | dispatch | releaseAdmission | expire | violate => cases unknown

/-- A guard never loses more than the attempt it counted. -/
theorem Change.weight (change : Change kind old new) :
    old.guard.blockingAttempts + new.attempt.weight ≤
      new.guard.blockingAttempts + old.attempt.weight := by
  have before := old.attempt.weight_nonneg
  have counted : old.attempt.state.uncertain = true → old.attempt.weight = 1 :=
    ToolAttempt.weight_of_uncertain
  cases change with
  | settle actual outcome =>
    rw [ToolAttempt.weight_of_certain]
    · simp only
      omega
    · cases success : outcome.success <;>
        simp [ToolAttempt.acknowledge, success, AttemptState.uncertain]
  | lose =>
    rw [ToolAttempt.weight_of_uncertain rfl]
    simp only [RetryGuard.block]
    omega
  | hold owner unknown =>
    have same : ∀ attempt : ToolAttempt, attempt.state = old.attempt.state →
        attempt.weight = old.attempt.weight := by
      intro attempt same
      unfold ToolAttempt.weight
      rw [same]
    cases owner <;> exact add_le_add_right (same _ rfl).le _
  | recover evidence stamp unknown =>
    rw [counted (by rw [unknown]; rfl), ToolAttempt.weight_of_certain]
    · simp only [RetryGuard.unblock]
      omega
    · by_cases succeeded : evidence.outcome = .succeeded <;>
        simp [ToolAttempt.recover, succeeded, AttemptState.uncertain]
  | expire now unknown =>
    rw [counted (by rw [unknown]; rfl), ToolAttempt.weight_of_uncertain rfl]
  | compensateUnresolved _ _ _ terminal _ _ _ _ unresolved =>
    rw [counted (by rw [unresolved]; rfl),
      ToolAttempt.weight_of_certain (by cases terminal <;> rfl)]
    simp only [RetryGuard.unblock]
    omega
  | compensateUnknown _ _ _ terminal _ _ _ unknown =>
    rw [counted (by rw [unknown]; rfl),
      ToolAttempt.weight_of_certain (by cases terminal <;> rfl)]
    simp only [RetryGuard.unblock]
    omega
  | dispatch | releaseAdmission | violate =>
    rw [ToolAttempt.weight_of_certain rfl]
    simp only
    omega

end Change

section Moves

variable {before after : Database}

theorem Touches.uncertain {id : UUID} {old new : Rows} (touch : Touches id before after old new)
    (group : UUID) :
    after.uncertain group +
        (if old.context.equivalenceGroupId = group then old.attempt.weight else 0) =
      before.uncertain group +
        if old.context.equivalenceGroupId = group then new.attempt.weight else 0 := by
  have agree : ∀ other context, other ≠ id → before.contexts.get other = some context →
      (if context.equivalenceGroupId = group then
        (before.attempts.get other).elim 0 ToolAttempt.weight else 0) =
      if context.equivalenceGroupId = group then
        (after.attempts.get other).elim 0 ToolAttempt.weight else 0 := by
    intro other context differ _
    rw [touch.attempts.get_of_ne differ]
  have total := Table.sum_exchange agree
  rw [touch.held.context, Option.elim_some, Option.elim_some, touch.held.attempt,
    touch.attempts.get_self, Option.elim_some, Option.elim_some] at total
  unfold Database.uncertain
  rw [touch.contexts]
  exact total

theorem Touches.guarded {id : UUID} {kind : Kind} {old new : Rows}
    (touch : Touches id before after old new) (change : Change kind old new)
    (recoverable : before.Recoverable) {group : UUID} {guard : RetryGuard}
    (found : after.guards.get group = some guard) :
    after.uncertain group ≤ guard.blockingAttempts := by
  have total := touch.uncertain group
  by_cases same : group = old.context.equivalenceGroupId
  · subst same
    obtain rfl := Option.some.inj (touch.guards.get_self.symm.trans found)
    have counted := recoverable.guarded _ _ touch.held.guard
    have moved := change.weight
    rw [if_pos rfl, if_pos rfl] at total
    omega
  · rw [touch.guards.get_of_ne same] at found
    rw [if_neg (Ne.symm same), if_neg (Ne.symm same), add_zero, add_zero] at total
    rw [total]
    exact recoverable.guarded group guard found

theorem Database.WellFormed.uncertain_fresh (formed : before.WellFormed) {group : UUID}
    (fresh : before.guards.get group = none) : before.uncertain group = 0 := by
  refine Table.sum_eq_zero fun id context found => ?_
  obtain ⟨rows, held, rfl⟩ := formed.holds_of_context found
  refine if_neg ?_
  rintro rfl
  cases fresh.symm.trans held.guard

theorem Admits.uncertain {id : UUID} {req : AdmissionRequest} {rows : Rows}
    (admits : Admits id req rows before after) (group : UUID) :
    after.uncertain group = before.uncertain group := by
  have total := admits.contexts.sum fun other context =>
    if context.equivalenceGroupId = group then
      (after.attempts.get other).elim 0 ToolAttempt.weight
    else 0
  obtain ⟨now, attempt⟩ := admits.attempt
  have certain : rows.attempt.weight = 0 := by
    rw [attempt]
    exact ToolAttempt.weight_of_certain rfl
  rw [admits.absent.context, Option.elim_none, add_zero, admits.attempts.get_self,
    Option.elim_some, certain, ite_self, add_zero] at total
  unfold Database.uncertain
  rw [total]
  refine Table.sum_congr fun other context stored => ?_
  have differ : other ≠ id := by
    rintro rfl
    cases admits.absent.context.symm.trans stored
  rw [admits.attempts.get_of_ne differ]

theorem Move.recoverable {kind : Kind} (move : Move kind before after) (formed : before.WellFormed)
    (recoverable : before.Recoverable) : after.Recoverable := by
  constructor
  · intro id rows held unknown
    rcases formed.governed id with ⟨old, was, -⟩ | absent
    · obtain ⟨later, kept, same | change⟩ := move.forward was
      · obtain rfl := kept.unique held
        rw [same.reservation, same.claim]
        exact recoverable.lost id old was (same.attempt ▸ unknown)
      · obtain rfl := kept.unique held
        exact change.lost (recoverable.lost id old was) unknown
    · rcases move.absent absent with still | ⟨-, req, admitted, admits⟩
      · exact (still.not_holds held).elim
      · obtain rfl := admits.holds.unique held
        obtain ⟨now, attempt⟩ := admits.attempt
        rw [attempt] at unknown
        cases unknown
  · intro group guard found
    cases move with
    | openGuard key row guards fresh free put =>
      by_cases same : group = key
      · subst same
        obtain rfl := Option.some.inj (put.get_self.symm.trans found)
        rw [free]
        exact (formed.uncertain_fresh fresh).le
      · exact recoverable.guarded group guard ((put.get_of_ne same).symm.trans found)
    | countGuard key was now guards there kept put =>
      by_cases same : group = key
      · subst same
        obtain rfl := Option.some.inj (put.get_self.symm.trans found)
        rw [kept]
        exact recoverable.guarded group was there
      · exact recoverable.guarded group guard ((put.get_of_ne same).symm.trans found)
    | admission admits =>
      rw [admits.uncertain]
      exact recoverable.guarded group guard (admits.guards ▸ found)
    | rewrite rewrites => exact rewrites.touch.guarded rewrites.change recoverable found
    | violate stamp was verified touch change put objects adjustments =>
      exact touch.guarded change recoverable found
    | compensate stamp was verified touch change put counted unadjusted adjusts adjustments =>
      exact touch.guarded change recoverable found
    | append | note | openWindow | openGroup | ingest => exact recoverable.guarded group guard found

theorem Moves.recoverable {allowed : Kind → Prop} (moves : Moves allowed before after)
    (formed : before.WellFormed) (recoverable : before.Recoverable) : after.Recoverable :=
  moves.invariant formed recoverable fun _ _ _ _ formed move => move.recoverable formed

end Moves

theorem store_recoverable {guard : StoreState → Operation → Prop} {state : StoreState}
    (reached : store.Reachable guard state) : state.db.Recoverable := by
  refine reached.induction (P := fun state => state.db.Recoverable) ?_ ?_
  · rintro _ ⟨manifests, -, rfl⟩
    exact ⟨fun id rows held => (by cases held.attempt), fun group guard found => (by cases found)⟩
  · rintro before operation after reachable recoverable - stepped
    cases stepped
    have valid := store_valid reachable
    exact (operation_moves valid operation).recoverable valid.formed recoverable

/-! ## Room in the counters -/

/-- A `bigint` column that may move by the margin either way. -/
def roomFor (margin value : Int) : Prop := -2 ^ 63 + margin ≤ value ∧ value + margin < 2 ^ 63

instance (margin value : Int) : Decidable (roomFor margin value) :=
  inferInstanceAs (Decidable (_ ∧ _))

def BudgetWindow.HasRoom (window : BudgetWindow) (calls bytes : Int) : Prop :=
  roomFor calls window.reservedToolCalls ∧ roomFor calls window.consumedToolCalls ∧
    roomFor bytes window.reservedResultBytes ∧ roomFor bytes window.consumedResultBytes

instance (window : BudgetWindow) (calls bytes : Int) : Decidable (window.HasRoom calls bytes) :=
  inferInstanceAs (Decidable (_ ∧ _))

/-- What a reservation may still move in the counters of its window. -/
def BudgetReservation.pending (reservation : BudgetReservation) (amount : Int) : Int :=
  if reservation.state = .unknown then amount.natAbs else 0

def Database.pendingCalls (db : Database) (window : UUID) : Int :=
  db.total window fun reservation => reservation.pending reservation.reservedToolCalls

def Database.pendingBytes (db : Database) (window : UUID) : Int :=
  db.total window fun reservation => reservation.pending reservation.reservedResultBytes

/-- Every window has room for the uncertain reservations in it. -/
def Database.Roomy (db : Database) : Prop := ∀ id window, db.windows.get id = some window →
  window.HasRoom (db.pendingCalls id) (db.pendingBytes id)

instance (db : Database) : Decidable db.Roomy :=
  decidable_of_iff (∀ entry ∈ db.windows.toList,
      entry.2.HasRoom (db.pendingCalls entry.1) (db.pendingBytes entry.1))
    ⟨fun all id window found => all (id, window) (Table.mem_toList.mpr found),
      fun all entry member => all entry.1 entry.2 (Table.mem_toList.mp member)⟩

theorem BudgetReservation.pending_nonneg (reservation : BudgetReservation) (amount : Int) :
    0 ≤ reservation.pending amount := by
  unfold BudgetReservation.pending
  split <;> omega

theorem BudgetWindow.HasRoom.recover {window : BudgetWindow} {calls bytes : Int}
    {reservation : BudgetReservation} {usedCalls usedBytes : Int}
    (room : window.HasRoom (calls + reservation.reservedToolCalls.natAbs)
      (bytes + reservation.reservedResultBytes.natAbs))
    (within : usedCalls.natAbs ≤ reservation.reservedToolCalls.natAbs ∧
      usedBytes.natAbs ≤ reservation.reservedResultBytes.natAbs) :
    (window.recover reservation.reservedToolCalls reservation.reservedResultBytes usedCalls
      usedBytes).HasRoom calls bytes := by
  obtain ⟨⟨a, b⟩, ⟨c, d⟩, ⟨e, f⟩, ⟨g, h⟩⟩ := room
  simp only [BudgetWindow.HasRoom, BudgetWindow.recover, roomFor]
  omega

theorem BudgetWindow.HasRoom.check {window : BudgetWindow} {calls bytes a b c d : Int}
    (room : (window.recover a b c d).HasRoom calls bytes) (nonneg : 0 ≤ calls ∧ 0 ≤ bytes)
    (checked : budgetWindow.check window = true) :
    budgetWindow.check (window.recover a b c d) = true := by
  obtain ⟨first, second, third, fourth⟩ := room
  simp only [budgetWindow, BudgetWindow.recover, bigint, roomFor, Bool.and_eq_true,
    decide_eq_true_eq, and_assoc] at *
  obtain ⟨order, columns⟩ := checked
  exact ⟨order, by omega⟩

/-- A change that closes an uncertain reservation within what it holds leaves room. -/
theorem Touches.roomy {id : UUID} {before after : Database} {kind : Kind} {old new : Rows}
    {usedCalls usedBytes : Int} (touch : Touches id before after old new)
    (change : Change kind old new) (sound : old.Sound)
    (was : old.reservation.state = .unknown) (closed : new.reservation.state ≠ .unknown)
    (window : new.window = old.window.recover old.reservation.reservedToolCalls
      old.reservation.reservedResultBytes usedCalls usedBytes)
    (within : usedCalls.natAbs ≤ old.reservation.reservedToolCalls.natAbs ∧
      usedBytes.natAbs ≤ old.reservation.reservedResultBytes.natAbs)
    (roomy : before.Roomy) : after.Roomy := by
  intro key found there
  have calls := touch.total change sound key fun r => r.pending r.reservedToolCalls
  have bytes := touch.total change sound key fun r => r.pending r.reservedResultBytes
  simp only [BudgetReservation.pending, if_pos was, if_neg closed] at calls bytes
  by_cases same : old.context.budgetWindowId = key
  · subst same
    obtain rfl := Option.some.inj (touch.windows.get_self.symm.trans there)
    rw [if_pos rfl, if_pos rfl, add_zero] at calls bytes
    have room := roomy _ _ touch.held.window
    rw [show before.pendingCalls old.context.budgetWindowId = _ from calls.symm,
      show before.pendingBytes old.context.budgetWindowId = _ from bytes.symm] at room
    rw [window]
    exact room.recover within
  · rw [touch.windows.get_of_ne (Ne.symm same)] at there
    rw [if_neg same, if_neg same, add_zero, add_zero] at calls bytes
    have room := roomy key found there
    rw [show before.pendingCalls key = _ from calls.symm,
      show before.pendingBytes key = _ from bytes.symm] at room
    exact room

/-! ## Writes that succeed -/

section Writes

variable {db : Database} {key : UUID} {rows : Rows}

theorem exists_window_recover (held : db.Holds key rows) (sound : rows.Sound) (roomy : db.Roomy)
    (uncertain : rows.reservation.state = .unknown) {usedCalls usedBytes : Int}
    (within : usedCalls.natAbs ≤ rows.reservation.reservedToolCalls.natAbs ∧
      usedBytes.natAbs ≤ rows.reservation.reservedResultBytes.natAbs) :
    ∃ windows, db.windows.Puts rows.context.budgetWindowId
      (rows.window.recover rows.reservation.reservedToolCalls
        rows.reservation.reservedResultBytes usedCalls usedBytes) windows := by
  have share (amount : BudgetReservation → Int) :
      (amount rows.reservation).natAbs ≤ db.total rows.context.budgetWindowId
        fun reservation => reservation.pending (amount reservation) := by
    have part := Table.le_sum (f := fun _ reservation =>
        if reservation.budgetWindowId = rows.context.budgetWindowId then
          reservation.pending (amount reservation) else 0)
      (fun _ reservation _ => by
        split
        · exact reservation.pending_nonneg _
        · exact le_refl 0) held.reservation
    rwa [if_pos sound.reservation, BudgetReservation.pending, if_pos uncertain] at part
  have calls := share (·.reservedToolCalls)
  have bytes := share (·.reservedResultBytes)
  have room : rows.window.HasRoom
      (db.pendingCalls rows.context.budgetWindowId - rows.reservation.reservedToolCalls.natAbs +
        rows.reservation.reservedToolCalls.natAbs)
      (db.pendingBytes rows.context.budgetWindowId - rows.reservation.reservedResultBytes.natAbs +
        rows.reservation.reservedResultBytes.natAbs) := by
    rw [sub_add_cancel, sub_add_cancel]
    exact roomy _ _ held.window
  refine Table.exists_puts held.window
    ((room.recover within).check ⟨?_, ?_⟩ (Table.check_of_get held.window)) fun _ => ⟨id, id⟩
  · exact Int.sub_nonneg_of_le calls
  · exact Int.sub_nonneg_of_le bytes

theorem exists_guard_unblock (held : db.Holds key rows)
    (blocked : 0 < rows.guard.blockingAttempts) :
    ∃ guards, db.guards.Puts rows.context.equivalenceGroupId rows.guard.unblock guards := by
  refine Table.exists_puts held.guard ?_ fun _ => ⟨id, id⟩
  have checked := Table.check_of_get held.guard
  simp only [retryGuard, RetryGuard.unblock, integer, Bool.and_eq_true, decide_eq_true_eq] at *
  omega

theorem exists_claim_complete (held : db.Holds key rows) :
    ∃ claims, db.claims.Puts key rows.claim.complete claims := by
  have checked : idempotencyClaim.check rows.claim = true := Table.check_of_get held.claim
  exact Table.exists_puts held.claim checked fun _ => ⟨id, id⟩

theorem ToolAttempt.check_of_unknown {attempt : ToolAttempt}
    (checked : toolAttempt.check attempt = true) (unknown : attempt.state = .unknown) :
    hexDigest attempt.requestHash = true ∧ attempt.leaseUntil = none ∧
      attempt.completedAt = none := by
  simp only [toolAttempt, unknown, Bool.and_eq_true, decide_eq_true_eq, reduceCtorEq, false_iff,
    AttemptState.completed] at checked
  obtain ⟨⟨⟨digest, free⟩, uncompleted⟩, -⟩ := checked
  exact ⟨digest, Option.not_isSome_iff_eq_none.mp free,
    Option.not_isSome_iff_eq_none.mp (by simp [← uncompleted])⟩

theorem exists_attempt_puts (held : db.Holds key rows) (unknown : rows.attempt.state = .unknown)
    {new : ToolAttempt}
    (shape : (∃ evidence stamp, new = rows.attempt.recover evidence stamp) ∨
      (∃ now, new = rows.attempt.expire now) ∨ new = rows.attempt.letGo) :
    ∃ attempts, db.attempts.Puts key new attempts := by
  obtain ⟨digest, free, open'⟩ :=
    ToolAttempt.check_of_unknown (Table.check_of_get held.attempt) unknown
  rcases shape with ⟨evidence, stamp, rfl⟩ | ⟨now, rfl⟩ | rfl
  · refine Table.exists_puts held.attempt ?_ fun _ => ⟨id, id⟩
    by_cases succeeded : evidence.outcome = .succeeded <;>
      simp [toolAttempt, ToolAttempt.recover, digest, free, succeeded, AttemptState.completed]
  · refine Table.exists_puts held.attempt ?_ fun _ => ⟨id, id⟩
    simp [toolAttempt, ToolAttempt.expire, digest, free, AttemptState.completed]
  · refine Table.exists_puts held.attempt ?_ fun _ => ⟨id, id⟩
    simp [toolAttempt, ToolAttempt.letGo, digest, free, open', unknown, AttemptState.completed]

theorem exists_updateAttemptOne (db : Database) (condition : ToolAttempt → Prop)
    [DecidablePred condition] (set : ToolAttempt → ToolAttempt) {attempt : ToolAttempt}
    {attempts : Table UUID toolAttempt}
    (found : db.attempts.get key = some attempt) (holds : condition attempt)
    (put : db.attempts.Puts key (set attempt) attempts) :
    ∃ after, Store.updateAttemptOne db key condition set = .ok after ∧
      after.reservations = db.reservations ∧ after.claims = db.claims :=
  ⟨_, updateAttemptOne_eq_ok.mpr
    ⟨attempt, found, holds, writeAttempt_eq_ok.mpr ⟨attempts, put, rfl⟩⟩, rfl, rfl⟩

theorem exists_reservation_recover (held : db.Holds key rows) {evidence : OwnerEvidence}
    (calls : 0 ≤ evidence.actualToolCalls ∧
      evidence.actualToolCalls ≤ rows.reservation.reservedToolCalls)
    (bytes : 0 ≤ evidence.actualResultBytes ∧
      evidence.actualResultBytes ≤ rows.reservation.reservedResultBytes) :
    ∃ reservations, db.reservations.Puts key (rows.reservation.recover evidence) reservations := by
  refine Table.exists_puts held.reservation ?_ fun _ => ⟨id, id⟩
  have checked := Table.check_of_get held.reservation
  by_cases sent : evidence.outcome = .notDispatched <;>
    simp only [budgetReservation, BudgetReservation.recover, OwnerEvidence.consumeCalls,
      OwnerEvidence.consumeBytes, sent, if_true, if_false, bigint, Option.all_some,
      Bool.and_eq_true, decide_eq_true_eq] at * <;>
    omega

theorem exists_reservation_expire (held : db.Holds key rows) :
    ∃ reservations, db.reservations.Puts key rows.reservation.expire reservations := by
  refine Table.exists_puts held.reservation ?_ fun _ => ⟨id, id⟩
  have checked := Table.check_of_get held.reservation
  simp only [budgetReservation, BudgetReservation.expire, bigint, Option.all_some,
    Bool.and_eq_true, decide_eq_true_eq] at *
  omega

end Writes

/-! ## Answers -/

/-- The answer can be applied to the attempt with this reservation, as far as it says. -/
def OwnerEvidence.fits (evidence : OwnerEvidence) (reservation : BudgetReservation) : Bool :=
  decide (evidence.outcome = .unknown) ||
    decide (0 ≤ evidence.actualToolCalls ∧
      evidence.actualToolCalls ≤ reservation.reservedToolCalls ∧
      0 ≤ evidence.actualResultBytes ∧
      evidence.actualResultBytes ≤ reservation.reservedResultBytes ∧
      reservation.reservedDistinctObjectsMax ≤ 0)

section Answers

variable {db : Database} {key : UUID} {rows : Rows} {worker : String}

theorem Database.Recoverable.blocked (recoverable : db.Recoverable) (held : db.Holds key rows)
    (unknown : rows.attempt.state = .unknown) : 0 < rows.guard.blockingAttempts := by
  have counted := recoverable.guarded _ _ held.guard
  have part := Table.le_sum (f := fun id context =>
      if context.equivalenceGroupId = rows.context.equivalenceGroupId then
        (db.attempts.get id).elim 0 ToolAttempt.weight else 0)
    (fun id context _ => by
      split
      · cases db.attempts.get id with
        | none => exact le_refl 0
        | some attempt => exact attempt.weight_nonneg
      · exact le_refl 0) held.context
  rw [if_pos rfl, held.attempt, Option.elim_some,
    ToolAttempt.weight_of_uncertain (by rw [unknown]; rfl)] at part
  exact lt_of_lt_of_le one_pos (part.trans counted)

theorem applyOwnerOutcome_ok (formed : db.WellFormed) (recoverable : db.Recoverable)
    (roomy : db.Roomy) (held : db.Holds key rows) (unknown : rows.attempt.state = .unknown)
    (mine : rows.attempt.recoveryOwner = some worker) {evidence : OwnerEvidence}
    (calls : 0 ≤ evidence.actualToolCalls ∧
      evidence.actualToolCalls ≤ rows.reservation.reservedToolCalls)
    (bytes : 0 ≤ evidence.actualResultBytes ∧
      evidence.actualResultBytes ≤ rows.reservation.reservedResultBytes) (stamp : Time) :
    ∃ after, Store.applyOwnerOutcome db stamp key rows.context rows.reservation worker evidence =
      .ok after := by
  obtain ⟨uncertain, lost⟩ := recoverable.lost key rows held unknown
  have blocked := recoverable.blocked held unknown
  have used : evidence.consumeCalls.natAbs ≤ rows.reservation.reservedToolCalls.natAbs ∧
      evidence.consumeBytes.natAbs ≤ rows.reservation.reservedResultBytes.natAbs := by
    unfold OwnerEvidence.consumeCalls OwnerEvidence.consumeBytes
    constructor <;> split <;> omega
  obtain ⟨windows, charged⟩ := exists_window_recover held (formed.sound held) roomy uncertain used
  obtain ⟨guards, unblocked⟩ := exists_guard_unblock held blocked
  obtain ⟨attempts, recovered⟩ := exists_attempt_puts held unknown (.inl ⟨evidence, stamp, rfl⟩)
  obtain ⟨reservations, settled⟩ := exists_reservation_recover held calls bytes
  obtain ⟨claims, completed⟩ := exists_claim_complete held
  obtain ⟨middle, wrote, keptReservations, keptClaims⟩ :=
    exists_updateAttemptOne { db with windows, guards }
      (fun row => row.recoveryOwner = some worker ∧ row.state = .unknown)
      (·.recover evidence stamp) held.attempt ⟨mine, unknown⟩ recovered
  simp only [Store.applyOwnerOutcome, bind_eq_ok, pure_eq_ok]
  refine ⟨_, windows, Table.updateAny_eq_ok.mpr (.inr ⟨_, held.window, charged⟩), guards,
    Table.updateOne_eq_ok.mpr ⟨_, held.guard, blocked, unblocked⟩, middle, wrote, reservations, ?_,
    claims, ?_, rfl⟩
  · rw [keptReservations]
    exact Table.updateOne_eq_ok.mpr ⟨_, held.reservation, uncertain, settled⟩
  · rw [keptClaims]
    exact Table.updateOne_eq_ok.mpr ⟨_, held.claim, lost, completed⟩

/-- Where the rows are in step and the counters have room, what an answer says decides whether
it is applied. -/
theorem applyOwnerEvidence_ok_iff (formed : db.WellFormed) (recoverable : db.Recoverable)
    (roomy : db.Roomy) (held : db.Holds key rows) (unknown : rows.attempt.state = .unknown)
    (mine : rows.attempt.recoveryOwner = some worker) {evidence : OwnerEvidence}
    (sent : rows.attempt.backendRequestId = some evidence.backendRequestId) (stamp : Time) :
    (∃ after, Store.applyOwnerEvidence db stamp key worker evidence = .ok after) ↔
      evidence.fits rows.reservation = true := by
  obtain ⟨uncertain, -⟩ := recoverable.lost key rows held unknown
  unfold Store.applyOwnerEvidence OwnerEvidence.fits
  simp only [bind_eq_ok, demand_eq_ok, ensure_eq_ok, exists_const, held.context, held.attempt, sent,
    Option.some.injEq, exists_eq_left', unknown, ne_eq, not_true_eq_false, if_false, mine,
    Option.getD_some, true_and, Bool.or_eq_true, decide_eq_true_eq]
  by_cases undecided : evidence.outcome = .unknown
  · simp only [undecided, if_true, true_or, iff_true]
    obtain ⟨attempts, put⟩ := exists_attempt_puts held unknown (.inr (.inr rfl))
    obtain ⟨after, done, -⟩ := exists_updateAttemptOne db
      (fun row => row.recoveryOwner = some worker ∧ row.state = .unknown) (·.letGo) held.attempt
      ⟨mine, unknown⟩ put
    exact ⟨after, done⟩
  · simp only [undecided, if_false, false_or, bind_eq_ok, demand_eq_ok, ensure_eq_ok,
      exists_const, held.reservation, Option.some.injEq, exists_eq_left', uncertain, true_and]
    constructor
    · rintro ⟨after, cost, objects, -⟩
      omega
    · rintro ⟨calls, callsFit, bytes, bytesFit, objects⟩
      obtain ⟨after, done⟩ := applyOwnerOutcome_ok formed recoverable roomy held unknown mine
        ⟨calls, callsFit⟩ ⟨bytes, bytesFit⟩ stamp
      exact ⟨after, by omega, by omega, done⟩

theorem Touches.roomy_of_hold {before after : Database} {old new : Rows}
    (touch : Touches key before after old new) (change : Change .hold old new) (sound : old.Sound)
    (roomy : before.Roomy) : after.Roomy := by
  have same : new.window = old.window ∧ new.reservation = old.reservation := by
    cases change
    exact ⟨rfl, rfl⟩
  intro id window found
  have calls := touch.total change sound id fun r => r.pending r.reservedToolCalls
  have bytes := touch.total change sound id fun r => r.pending r.reservedResultBytes
  rw [same.2] at calls bytes
  have kept : before.windows.get id = some window := by
    by_cases here : id = old.context.budgetWindowId
    · subst here
      rw [touch.held.window, ← same.1, ← touch.windows.get_self]
      exact found
    · exact (touch.windows.get_of_ne here).symm.trans found
  have room := roomy id window kept
  rwa [show before.pendingCalls id = after.pendingCalls id from (add_right_cancel calls).symm,
    show before.pendingBytes id = after.pendingBytes id from (add_right_cancel bytes).symm] at room

theorem applyOwnerEvidence_effects {after : Database} {stamp : Time} {evidence : OwnerEvidence}
    (formed : db.WellFormed) (roomy : db.Roomy)
    (done : Store.applyOwnerEvidence db stamp key worker evidence = .ok after) :
    Moves (fun _ => True) db after ∧ after.Roomy ∧ ∀ other, other ≠ key →
      after.attempts.get other = db.attempts.get other ∧
        after.reservations.get other = db.reservations.get other := by
  rcases applyOwnerEvidence_rewrites formed done with
    rfl | ⟨old, new, rewrites⟩ | ⟨-, old, new, rewrites⟩
  · exact ⟨.refl, roomy, fun _ _ => ⟨rfl, rfl⟩⟩
  all_goals
    have touch := rewrites.touch
    have sound := formed.sound touch.held
    refine ⟨.single (.rewrite rewrites) trivial, ?_, fun other differ =>
      ⟨touch.attempts.get_of_ne differ, touch.reservations.get_of_ne differ⟩⟩
  · exact touch.roomy_of_hold rewrites.change sound roomy
  · have change := rewrites.change
    cases change with
    | recover evidence stamp unknown uncertain lost calls bytes objects blocked =>
      refine touch.roomy rewrites.change sound uncertain ?_ rfl ?_ roomy
      · by_cases sent : evidence.outcome = .notDispatched <;>
          simp [BudgetReservation.recover, sent]
      · unfold OwnerEvidence.consumeCalls OwnerEvidence.consumeBytes
        constructor <;> split <;> omega

end Answers

/-! ## The closing expiry -/

section Expiry

variable {db : Database} {now : Time}

theorem expireOne_ok {row : ExpiryCandidate} {rows : Rows} (formed : db.WellFormed)
    (recoverable : db.Recoverable) (roomy : db.Roomy) (held : db.Holds row.attempt rows)
    (placed : row.window = rows.context.budgetWindowId) :
    ∃ after, Store.expireOne now db row = .ok after := by
  unfold Store.expireOne
  simp only [bind_eq_ok, demand_eq_ok, held.attempt, Option.some.injEq, exists_eq_left', placed]
  by_cases unknown : rows.attempt.state = .unknown
  · obtain ⟨uncertain, lost⟩ := recoverable.lost _ rows held unknown
    obtain ⟨windows, charged⟩ := exists_window_recover held (formed.sound held) roomy uncertain
      ⟨le_refl rows.reservation.reservedToolCalls.natAbs,
        le_refl rows.reservation.reservedResultBytes.natAbs⟩
    obtain ⟨reservations, settled⟩ := exists_reservation_expire held
    obtain ⟨claims, completed⟩ := exists_claim_complete held
    obtain ⟨attempts, expired⟩ := exists_attempt_puts held unknown (.inr (.inl ⟨now, rfl⟩))
    obtain ⟨after, wrote, -⟩ :=
      exists_updateAttemptOne { db with windows, reservations, claims }
        (fun row => row.state = .unknown) (·.expire now) held.attempt unknown expired
    simp only [unknown, ne_eq, not_true_eq_false, if_false, bind_eq_ok, demand_eq_ok, ensure_eq_ok,
      exists_const, held.reservation, Option.some.injEq, exists_eq_left']
    exact ⟨after, uncertain, windows,
      Table.updateAny_eq_ok.mpr (.inr ⟨_, held.window, charged⟩), reservations,
      Table.updateOne_eq_ok.mpr ⟨_, held.reservation, uncertain, settled⟩, claims,
      Table.updateOne_eq_ok.mpr ⟨_, held.claim, lost, completed⟩, wrote⟩
  · exact ⟨db, by rw [if_pos unknown]; rfl⟩

theorem expireOne_roomy {row : ExpiryCandidate} {rows : Rows} {after : Database}
    (formed : db.WellFormed) (roomy : db.Roomy) (held : db.Holds row.attempt rows)
    (placed : row.window = rows.context.budgetWindowId)
    (done : Store.expireOne now db row = .ok after) : after.Roomy := by
  rcases expireOne_rewrites held placed done with rfl | ⟨new, rewrites⟩
  · exact roomy
  · have change := rewrites.change
    cases change with
    | expire _ unknown uncertain lost =>
      exact rewrites.touch.roomy rewrites.change (formed.sound held) uncertain
        (by simp [BudgetReservation.expire]) rfl ⟨le_refl _, le_refl _⟩ roomy

theorem foldlM_expireOne_ok {rest : List ExpiryCandidate} (formed : db.WellFormed)
    (recoverable : db.Recoverable) (roomy : db.Roomy)
    (held : ∀ row ∈ rest, ∃ rows, db.Holds row.attempt rows ∧
      row.window = rows.context.budgetWindowId) :
    ∃ after, rest.foldlM (Store.expireOne now) db = .ok after := by
  induction rest generalizing db with
  | nil => exact ⟨db, rfl⟩
  | cons row rest ih =>
    obtain ⟨rows, there, placed⟩ := held row List.mem_cons_self
    obtain ⟨next, passed⟩ : ∃ next, Store.expireOne now db row = .ok next :=
      expireOne_ok formed recoverable roomy there placed
    have moves : Moves (fun _ => True) db next := by
      rcases expireOne_rewrites there placed passed with rfl | ⟨new, rewrites⟩
      · exact .refl
      · exact .single (.rewrite rewrites) trivial
    obtain ⟨after, done⟩ := ih (moves.wellFormed formed) (moves.recoverable formed recoverable)
      (expireOne_roomy formed roomy there placed passed) (by
        intro other member
        obtain ⟨own, was, of⟩ := held other (List.mem_cons_of_mem _ member)
        obtain ⟨kept, still, same⟩ := moves.extends formed other.attempt own was
        exact ⟨kept, still, of.trans (congrArg _ same.context.symm)⟩)
    refine ⟨after, ?_⟩
    rw [List.foldlM_cons, bind_eq_ok]
    exact ⟨next, passed, done⟩

theorem expireUnknown_ok (formed : db.WellFormed) (recoverable : db.Recoverable)
    (roomy : db.Roomy) (now unknownBefore : Time) (limit : Nat) :
    ∃ after, Store.expireUnknown db db now unknownBefore limit = .ok after := by
  refine foldlM_expireOne_ok formed recoverable roomy fun row member => ?_
  obtain ⟨rows, held, placed⟩ := of_selectExpiredUnknown formed member
  exact ⟨rows, held, placed⟩

end Expiry

end OufMcp.Ledger
