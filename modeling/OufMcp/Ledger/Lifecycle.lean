import OufMcp.Ledger.Steps

/-!
# Lifecycle of an attempt

The transitions each kind of change makes, and that one committed transaction
makes at most one of them on an attempt, with a larger lock version.  A closed
attempt stays as it is, except under a settlement that finds its reservation
released.
-/

namespace OufMcp.Ledger

open Relational Transition

/-- The transitions an attempt may take. -/
def AttemptState.permits : AttemptState → AttemptState → Bool
  | .admitted, .running | .admitted, .failed => true
  | .running, .succeeded | .running, .failed | .running, .unknown => true
  | .unknown, .succeeded | .unknown, .failed | .unknown, .unresolved => true
  | .unresolved, .succeeded | .unresolved, .failed => true
  | _, _ => false

def Kind.leaves : Kind → AttemptState → Prop
  | .dispatch, state | .releaseAdmission, state => state = .admitted
  | .lose, state => state = .running
  | .recover, state | .expire, state => state = .unknown
  | .violate _, state | .compensate _ _, state => state.uncertain = true
  | _, _ => False

def Kind.enters : Kind → AttemptState → Prop
  | .dispatch, state => state = .running
  | .releaseAdmission, state | .violate _, state => state = .failed
  | .lose, state => state = .unknown
  | .expire, state => state = .unresolved
  | .recover, state | .compensate _ _, state => state.terminal = true
  | _, _ => False

/-- Every change but settlement and a hold leaves one of its states and enters one. -/
theorem Change.transition {kind : Kind} {old new : Rows} (change : Change kind old new)
    (other : ∀ actual, kind ≠ .settle actual) :
    new.attempt.state = old.attempt.state ∨
      (kind.leaves old.attempt.state ∧ kind.enters new.attempt.state) := by
  cases change with
  | settle actual => exact absurd rfl (other actual)
  | hold owner unknown =>
    left
    cases owner <;> rfl
  | dispatch backendRequestId leaseUntil admitted => exact .inr ⟨admitted, rfl⟩
  | releaseAdmission stamp admitted => exact .inr ⟨admitted, rfl⟩
  | lose now debt running => exact .inr ⟨running, rfl⟩
  | recover evidence stamp unknown =>
    refine .inr ⟨unknown, ?_⟩
    show AttemptState.terminal
      (if evidence.outcome = .succeeded then .succeeded else .failed) = true
    split <;> rfl
  | expire now unknown => exact .inr ⟨unknown, rfl⟩
  | violate ref stamp code resultRef debt uncertain => exact .inr ⟨uncertain, rfl⟩
  | compensateUnresolved stamp ref inserted terminal dispatchState code resultRef debt unresolved =>
    refine .inr ⟨?_, by cases terminal <;> rfl⟩
    rw [unresolved]
    rfl
  | compensateUnknown stamp ref inserted terminal code resultRef debt unknown =>
    refine .inr ⟨?_, by cases terminal <;> rfl⟩
    rw [unknown]
    rfl

theorem AttemptState.permits_terminal {source target : AttemptState}
    (uncertain : source.uncertain = true) (terminal : target.terminal = true) :
    source.permits target = true := by
  cases source <;> cases uncertain <;> cases target <;> cases terminal <;> rfl

theorem Kind.permitted {kind : Kind} {source target : AttemptState} (left : kind.leaves source)
    (entered : kind.enters target) : source.permits target = true := by
  cases kind with
  | dispatch | releaseAdmission | lose | expire => cases left; cases entered; rfl
  | recover => cases left; exact AttemptState.permits_terminal rfl entered
  | violate ref => cases entered; exact AttemptState.permits_terminal left rfl
  | compensate ref inserted => exact AttemptState.permits_terminal left entered
  | _ => exact left.elim

theorem Event.exclusive {event : Event} {first second : Kind} (one : event.allows first)
    (two : event.allows second) {state : AttemptState} (entered : first.enters state) :
    ¬ second.leaves state := by
  intro left
  have closed : state.terminal = true → state.uncertain = true → False := by
    intro terminal uncertain
    cases state <;> cases terminal <;> cases uncertain
  cases event with
  | reserve => rcases one with rfl | rfl <;> exact entered
  | dispatch =>
    cases one
    cases two
    cases entered
    cases left
  | reconcile => obtain ⟨actual, rfl⟩ := one; exact entered
  | markStaleAndClaim =>
    rcases one with rfl | rfl | rfl <;> rcases two with rfl | rfl | rfl <;>
      first | exact left.elim | exact entered.elim | (cases entered; cases left)
  | applyOwnerEvidence =>
    rcases one with rfl | rfl
    · exact entered
    · rcases two with rfl | rfl
      · exact left
      · cases left; cases entered
  | expireUnknown =>
    cases one
    cases two
    cases entered
    cases left
  | lateCompensate =>
    rcases one with rfl | rfl | ⟨inserted, rfl⟩
    · exact entered
    · rcases two with rfl | rfl | ⟨also, rfl⟩
      · exact left
      · cases entered; cases left
      · cases entered; cases left
    · rcases two with rfl | rfl | ⟨also, rfl⟩
      · exact left
      · exact closed entered left
      · exact closed entered left
  | audit | insertVerifiedEvidence => cases one; exact entered
  | begin | abort | execute | abandon | maintain => exact one.elim

/-- The state stays, or takes one permitted transition with a larger lock version. -/
def ToolAttempt.Advances (old new : ToolAttempt) : Prop :=
  (new.state = old.state ∧ old.lockVersion ≤ new.lockVersion) ∨
    (old.state.permits new.state = true ∧ old.lockVersion < new.lockVersion)

theorem ToolAttempt.Advances.version {old new : ToolAttempt} (advances : old.Advances new) :
    old.lockVersion ≤ new.lockVersion := by
  rcases advances with ⟨-, version⟩ | ⟨-, version⟩
  · exact version
  · exact version.le

/-- An attempt advances across a chain of moves that leave no state they enter. -/
theorem Moves.advances {allowed : Kind → Prop} {before after : Database}
    (moves : Moves allowed before after) (formed : before.WellFormed)
    (unsettled : ∀ actual, ¬ allowed (.settle actual))
    (exclusive : ∀ {first second : Kind} {state : AttemptState}, allowed first → allowed second →
      first.enters state → ¬ second.leaves state)
    {id : UUID} {rows : Rows} (held : before.Holds id rows) :
    ∃ later, after.Holds id later ∧ rows.attempt.Advances later.attempt := by
  -- The invariant also says which kind of move entered the state.
  have tracked : ∃ later, after.Holds id later ∧
      (rows.attempt.Advances later.attempt ∧ (later.attempt.state = rows.attempt.state ∨
        ∃ kind, allowed kind ∧ kind.enters later.attempt.state)) := by
    refine moves.invariant (P := fun db => ∃ later, db.Holds id later ∧
      (rows.attempt.Advances later.attempt ∧ (later.attempt.state = rows.attempt.state ∨
        ∃ kind, allowed kind ∧ kind.enters later.attempt.state))) formed
      ⟨rows, held, .inl ⟨rfl, le_refl _⟩, .inl rfl⟩ ?_
    rintro kind a b member - move ⟨middle, there, soFar, entry⟩
    obtain ⟨later, arrived, same | change⟩ := move.forward there
    · refine ⟨later, arrived, ?_⟩
      rw [same.attempt]
      exact ⟨soFar, entry⟩
    · obtain ⟨version, growth⟩ := change.lockVersion
      refine ⟨later, arrived, ?_⟩
      rcases change.transition (by rintro actual rfl; exact unsettled actual member) with
        still | ⟨left, entered⟩
      · rw [still]
        refine ⟨?_, entry⟩
        rcases soFar with ⟨state, older⟩ | ⟨permitted, older⟩
        · exact .inl ⟨still.trans state, older.trans version⟩
        · exact .inr ⟨still ▸ permitted, lt_of_lt_of_le older version⟩
      · rcases entry with state | ⟨first, also, before⟩
        · refine ⟨?_, .inr ⟨kind, member, entered⟩⟩
          rcases growth with same | grown
          · exact .inl ⟨same.trans state, soFar.version.trans version⟩
          · exact .inr ⟨Kind.permitted (state ▸ left) entered,
              lt_of_le_of_lt soFar.version grown⟩
        · exact absurd left (exclusive also member before)
  obtain ⟨later, arrived, advanced, -⟩ := tracked
  exact ⟨later, arrived, advanced⟩

/-! ## Runs -/

/-- A step that settles no closed attempt: `Reconcile` finds its attempt open, or its
reservation already reconciled. -/
def State.settlesOpen (state : State) : Event → Bool
  | .reconcile caller _ =>
    match state.calls caller with
    | .replied id _ _ =>
      ((state.db.attempts.get id).all fun attempt => !attempt.state.terminal) ||
        (state.db.reservations.get id).all fun reservation =>
          decide (reservation.state = .reconciled)
    | _ => true
  | _ => true

theorem Rewrites.settle_advances {id : UUID} {before after : Database} {old new : Rows}
    {actual : Cost} (rewrites : Rewrites (.settle actual) id before after old new)
    (sent : old.attempt.state ≠ .admitted) (unclosed : old.attempt.state.terminal = false) :
    old.attempt.Advances new.attempt := by
  have change := rewrites.change
  cases change with
  | settle _ outcome stamp unsettled objects =>
    refine .inr ⟨?_, Nat.lt_succ_self _⟩
    show old.attempt.state.permits (if outcome.success then .succeeded else .failed) = true
    cases state : old.attempt.state with
    | admitted => exact absurd state sent
    | succeeded | failed => rw [state] at unclosed; cases unclosed
    | running | unknown | unresolved => split <;> rfl

/-- The attempt a settlement finds is open, where the guard admits the settlement. -/
theorem State.settlesOpen_unclosed {state : State} {caller : Nat} {stamp : Time} {id : UUID}
    {actual : Cost} {outcome : AttemptOutcome} {after : Database} {old new : Rows}
    (allowed : state.settlesOpen (.reconcile caller stamp) = true)
    (phase : state.calls caller = .replied id actual outcome)
    (rewrites : Rewrites (.settle actual) id state.db after old new) :
    old.attempt.state.terminal = false := by
  have unsettled : old.reservation.state ≠ .reconciled := by
    cases rewrites.change
    assumption
  simpa [State.settlesOpen, phase, rewrites.touch.held.attempt, rewrites.touch.held.reservation,
    unsettled] using allowed

theorem step_advances {state next : State} {event : Event} (valid : state.Valid)
    (allowed : state.settlesOpen event = true) (stepped : state.step event = some next)
    {id : UUID} {rows : Rows} (held : state.db.Holds id rows) :
    ∃ later, next.db.Holds id later ∧ rows.attempt.Advances later.attempt := by
  have unchanged : rows.attempt.Advances rows.attempt := .inl ⟨rfl, le_refl _⟩
  by_cases settles : ∃ caller stamp, event = .reconcile caller stamp
  · obtain ⟨caller, stamp, rfl⟩ := settles
    rcases step_reconcile valid stepped with
      same | ⟨key, actual, outcome, old, new, phase, rewrites⟩
    · rw [same]
      exact ⟨rows, held, unchanged⟩
    · have follows := valid.follows caller
      rw [phase] at follows
      obtain ⟨-, -, -, sender, there, sent⟩ := follows
      by_cases same : id = key
      · subst same
        obtain rfl := rewrites.touch.held.unique held
        obtain rfl := rewrites.touch.held.unique there
        exact ⟨new, rewrites.touch.holds,
          rewrites.settle_advances sent (State.settlesOpen_unclosed allowed phase rewrites)⟩
      · obtain ⟨later, arrived, -⟩ := (Move.rewrite rewrites).extends _ _ held
        have attempt := Option.some.inj (arrived.attempt.symm.trans
          ((rewrites.touch.attempts.get_of_ne same).trans held.attempt))
        exact ⟨later, arrived, attempt ▸ unchanged⟩
  · refine (step_moves valid stepped).advances valid.formed ?_
      (fun one two entered => Event.exclusive one two entered) held
    intro actual member
    exact settles (Event.reconcile_of_allows member)

theorem Change.unclosed {kind : Kind} {old new : Rows} (change : Change kind old new)
    (other : ∀ actual, kind ≠ .settle actual) : old.attempt.state.terminal = false := by
  cases change with
  | settle actual => exact absurd rfl (other actual)
  | dispatch backendRequestId leaseUntil admitted => rw [admitted]; rfl
  | releaseAdmission stamp admitted => rw [admitted]; rfl
  | lose now debt running => rw [running]; rfl
  | hold owner unknown => rw [unknown]; rfl
  | recover evidence stamp unknown => rw [unknown]; rfl
  | expire now unknown => rw [unknown]; rfl
  | violate ref stamp code resultRef debt uncertain =>
    cases state : old.attempt.state with
    | succeeded | failed => rw [state] at uncertain; cases uncertain
    | admitted | running | unknown | unresolved => rfl
  | compensateUnresolved stamp ref inserted terminal dispatchState code resultRef debt unresolved =>
    rw [unresolved]
    rfl
  | compensateUnknown stamp ref inserted terminal code resultRef debt unknown => rw [unknown]; rfl

structure Database.Closed (db : Database) (id : UUID) (attempt : ToolAttempt)
    (reservation : BudgetReservation) : Prop where
  stored : db.attempts.get id = some attempt
  reserved : db.reservations.get id = some reservation
  terminal : attempt.state.terminal = true

theorem Move.closed {kind : Kind} {before after : Database} (move : Move kind before after)
    (formed : before.WellFormed) (other : ∀ actual, kind ≠ .settle actual) {id : UUID}
    {attempt : ToolAttempt} {reservation : BudgetReservation}
    (closed : before.Closed id attempt reservation) : after.Closed id attempt reservation := by
  obtain ⟨rows, held, rfl⟩ := formed.holds_of_attempt closed.stored
  obtain rfl := Option.some.inj (held.reservation.symm.trans closed.reserved)
  obtain ⟨later, arrived, same | change⟩ := move.forward held
  · exact ⟨same.attempt ▸ arrived.attempt, same.reservation ▸ arrived.reservation, closed.terminal⟩
  · have impossible := closed.terminal
    rw [change.unclosed other] at impossible
    cases impossible

theorem step_closed {state next : State} {event : Event} (valid : state.Valid)
    (allowed : state.settlesOpen event = true) (stepped : state.step event = some next)
    {id : UUID} {attempt : ToolAttempt} {reservation : BudgetReservation}
    (closed : state.db.Closed id attempt reservation) : next.db.Closed id attempt reservation := by
  refine step_preserves (P := fun db => db.Closed id attempt reservation)
    (fun state event => state.settlesOpen event = true) ?_ ?_ ?_ valid allowed stepped closed
  · intro kind before after usual formed move closed
    refine move.closed formed ?_ closed
    rintro actual rfl
    exact usual
  · intro state caller stamp key actual outcome after old new valid allowed phase rewrites closed
    by_cases same : id = key
    · subst same
      obtain rfl := Option.some.inj (rewrites.touch.held.attempt.symm.trans closed.stored)
      have impossible := closed.terminal
      rw [State.settlesOpen_unclosed allowed phase rewrites] at impossible
      cases impossible
    · exact ⟨(rewrites.touch.attempts.get_of_ne same).trans closed.stored,
        (rewrites.touch.reservations.get_of_ne same).trans closed.reserved, closed.terminal⟩
  · intro state seen stamp key ref revision after valid allowed violation named move closed
    exact move.closed valid.formed (fun _ impossible => by cases impossible) closed

/-- In every run whose steps settle no closed attempt, each committed change of an
attempt's state is a permitted transition with a larger lock version, and a closed attempt
keeps its state, its dispatch state and its reservation for good. -/
theorem attempt_lifecycle {state : State}
    (reached : runtime.Reachable (fun state event => state.settlesOpen event = true) state) :
    (∀ event next, state.settlesOpen event = true → state.step event = some next →
      ∀ id old, state.db.attempts.get id = some old → ∃ new,
        next.db.attempts.get id = some new ∧ (old.state ≠ new.state →
          old.state.permits new.state = true ∧ old.lockVersion < new.lockVersion)) ∧
    ∀ later, runtime.Steps (fun state event => state.settlesOpen event = true) state later →
      ∀ id old, state.db.attempts.get id = some old → old.state.terminal = true → ∃ new,
        later.db.attempts.get id = some new ∧ new.state = old.state ∧
          new.dispatchState = old.dispatchState ∧
          later.db.reservations.get id = state.db.reservations.get id := by
  constructor
  · intro event next allowed stepped id old found
    obtain ⟨rows, held, rfl⟩ := (reachable_valid reached).formed.holds_of_attempt found
    obtain ⟨after, arrived, advances⟩ :=
      step_advances (reachable_valid reached) allowed stepped held
    refine ⟨after.attempt, arrived.attempt, fun differ => ?_⟩
    rcases advances with ⟨same, -⟩ | permitted
    · exact absurd same.symm differ
    · exact permitted
  · intro later steps id old found terminal
    obtain ⟨rows, held, rfl⟩ := (reachable_valid reached).formed.holds_of_attempt found
    have stays := System.Steps.induction
      (R := fun source target => ∀ attempt reservation,
        source.db.Closed id attempt reservation → target.db.Closed id attempt reservation)
      reached steps (fun _ _ _ closed => closed)
      (fun _ _ _ first second attempt reservation closed =>
        second attempt reservation (first attempt reservation closed))
      fun _ _ _ before allowed stepped _ _ closed =>
        step_closed (reachable_valid before) allowed stepped closed
    have closed := stays rows.attempt rows.reservation ⟨held.attempt, held.reservation, terminal⟩
    exact ⟨rows.attempt, closed.stored, rfl, rfl, closed.reserved.trans held.reservation.symm⟩

/-- A lost call that its owner reports as succeeded, before the reply is settled. -/
def succeededByOwner : List Event :=
  [.begin 0 (searchCall "first" "one" 0) 1, .reserve 0 0 ⟨10, 11, 0⟩, .dispatch 0 0 "backend",
    .execute 0 shortReply, .markStaleAndClaim 99 99 0 (10 * second) (-1) "worker" second 5 [],
    .applyOwnerEvidence 0 1 "worker" ⟨"backend", .succeeded, "OK", "", 1, 10⟩]

theorem attempt_lifecycle_succeededByOwner :
    ∃ state, replayTrace State.settlesOpen succeededByOwner = some state ∧
      (state.db.attempts.get 1).map (·.state) = some .succeeded ∧
      ∀ later, runtime.Steps (fun state event => state.settlesOpen event = true) state later →
        (later.db.attempts.get 1).map (·.state) = some .succeeded := by
  obtain ⟨state, replayed, reached, checked⟩ := replayTrace_reachable State.settlesOpen
    succeededByOwner
    (fun state => decide ((state.db.attempts.get 1).map (·.state) = some .succeeded))
    (by decide +kernel)
  have succeeded := of_decide_eq_true checked
  refine ⟨state, replayed, succeeded, fun later steps => ?_⟩
  obtain ⟨attempt, found, same⟩ := Option.map_eq_some_iff.mp succeeded
  obtain ⟨new, kept, still, -⟩ :=
    (attempt_lifecycle reached).2 later steps 1 attempt found (by rw [same]; rfl)
  rw [kept, Option.map_some, still, same]

/-- A lost call that its owner proves was never dispatched, before the reply is settled. -/
def disprovedByOwner : List Event :=
  [.begin 0 (searchCall "first" "one" 0) 1, .reserve 0 0 ⟨10, 11, 0⟩, .dispatch 0 0 "backend",
    .execute 0 shortReply, .markStaleAndClaim 99 99 0 (10 * second) (-1) "worker" second 5 [],
    .applyOwnerEvidence 0 1 "worker" ⟨"backend", .notDispatched, "NOT_SENT", "", 0, 0⟩]

/-- Settlement then turns the failed attempt into a succeeded one. -/
theorem disprovedByOwner_reopens :
    ∃ state next, replayTrace (fun _ _ => true) disprovedByOwner = some state ∧
      runtime.Reachable System.always state ∧ state.step (.reconcile 0 0) = some next ∧
      (state.db.attempts.get 1).map (·.state) = some .failed ∧
      (next.db.attempts.get 1).map (·.state) = some .succeeded := by
  obtain ⟨state, replayed, reached, checked⟩ := replayTrace_reachable (fun _ _ => true)
    disprovedByOwner (fun state => (state.step (.reconcile 0 0)).any fun (next : State) =>
      decide ((state.db.attempts.get 1).map (·.state) = some .failed ∧
        (next.db.attempts.get 1).map (·.state) = some .succeeded)) (by decide +kernel)
  obtain ⟨next, stepped, states⟩ := (Option.any_eq_true _ _).mp checked
  obtain ⟨failed, succeeded⟩ := of_decide_eq_true states
  exact ⟨state, next, replayed, reached.mono fun _ _ _ => trivial, stepped, failed, succeeded⟩

end OufMcp.Ledger
