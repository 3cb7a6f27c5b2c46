import OufMcp.Ledger.Inversion

/-!
# Steps of a run

What each event may do to the database, and the invariant every run keeps: the
database is well formed, it extends every database committed before it, and each
call follows the attempt it was admitted with.  The last section is the rule by
which later modules prove that a property of the database holds in every reached
state.
-/

namespace OufMcp.Ledger

open Relational Transition

variable {id : UUID} {rows : Rows} {caller : Nat}

def Event.allows : Event → Kind → Prop
  | .reserve .., kind => kind = .prepare ∨ kind = .admission
  | .dispatch .., kind => kind = .dispatch
  | .reconcile .., kind => ∃ actual, kind = .settle actual
  | .audit _, kind => kind = .append
  | .markStaleAndClaim .., kind => kind.stale
  | .applyOwnerEvidence .., kind => kind = .hold ∨ kind = .recover
  | .expireUnknown .., kind => kind = .expire
  | .insertVerifiedEvidence _, kind => kind = .ingest
  | .lateCompensate _ _ _ ref _, kind =>
    kind = .note ∨ kind = .violate ref ∨ ∃ inserted, kind = .compensate ref inserted
  | .begin .., _ | .abort _, _ | .execute .., _ | .abandon _, _ | .maintain _, _ => False

variable {event : Event}

theorem Event.reconcile_of_allows {actual : Cost} (allowed : event.allows (.settle actual)) :
    ∃ caller stamp, event = .reconcile caller stamp := by
  cases event with
  | reconcile caller stamp => exact ⟨caller, stamp, rfl⟩
  | _ => simp [Event.allows, Kind.stale] at allowed

theorem Event.reserve_of_allows (allowed : event.allows .admission) :
    ∃ caller now fresh, event = .reserve caller now fresh := by
  cases event with
  | reserve caller now fresh => exact ⟨caller, now, fresh, rfl⟩
  | _ => simp [Event.allows, Kind.stale] at allowed

/-- The rows of the attempt a call was admitted with. -/
structure Invocation.Owns (call : Invocation) (rows : Rows) : Prop where
  key : rows.claim.key = (call.admission 0).claimKey
  calls : rows.reservation.reservedToolCalls = call.maximum.toolCalls
  bytes : rows.reservation.reservedResultBytes = call.maximum.resultBytes

/-- A call that has been admitted follows its attempt. -/
def Phase.Follows (db : Database) : Phase → Prop
  | .admitted call decision =>
    decision.lockVersion = 0 ∧ ∃ rows, db.Holds decision.attemptId rows ∧ call.Owns rows
  | .dispatched call id _ =>
    ∃ rows, db.Holds id rows ∧ call.Owns rows ∧ rows.attempt.state ≠ .admitted
  | .replied id actual _ =>
    actual.toolCalls = 1 ∧ actual.distinctObjects = 0 ∧ 0 ≤ actual.resultBytes ∧
      ∃ rows, db.Holds id rows ∧ rows.attempt.state ≠ .admitted
  | .idle | .reserving .. | .returned => True

theorem Invocation.Owns.kept {call : Invocation} {old new : Rows} (owns : call.Owns old)
    (kept : old.Kept new) : call.Owns new :=
  ⟨kept.claimKey.trans owns.key, kept.toolCalls.trans owns.calls,
    kept.resultBytes.trans owns.bytes⟩

theorem Admits.owns {id attemptId : UUID} {call : Invocation} {before after : Database}
    (admits : Admits id (call.admission attemptId) rows before after) : call.Owns rows := by
  constructor
  · rw [admits.claim]
    rfl
  · rw [admits.reservation]
    rfl
  · rw [admits.reservation]
    rfl

theorem Phase.Follows.extends {before after : Database} {phase : Phase}
    (follows : phase.Follows before) (grown : before.Extends after) : phase.Follows after := by
  cases phase with
  | admitted call decision =>
    obtain ⟨version, rows, held, owns⟩ := follows
    obtain ⟨later, still, kept⟩ := grown _ _ held
    exact ⟨version, later, still, owns.kept kept⟩
  | dispatched call id backendRequestId =>
    obtain ⟨rows, held, owns, sent⟩ := follows
    obtain ⟨later, still, kept⟩ := grown _ _ held
    exact ⟨later, still, owns.kept kept, kept.sent sent⟩
  | replied id actual outcome =>
    obtain ⟨calls, objects, bytes, rows, held, sent⟩ := follows
    obtain ⟨later, still, kept⟩ := grown _ _ held
    exact ⟨calls, objects, bytes, later, still, kept.sent sent⟩
  | _ => trivial

/-- The invariant of a run. -/
structure State.Valid (state : State) : Prop where
  formed : state.db.WellFormed
  earlier : ∀ past ∈ state.past, past.WellFormed ∧ past.Extends state.db
  follows : ∀ caller, (state.calls caller).Follows state.db

variable {state : State}

theorem State.initial_valid (manifests : List String) : (State.initial manifests).Valid where
  formed := Database.migrated_wellFormed manifests
  earlier := nofun
  follows _ := trivial

theorem State.Valid.snapshot (valid : state.Valid) (index : Nat) :
    (state.snapshot index).WellFormed ∧ (state.snapshot index).Precedes state.db := by
  unfold State.snapshot
  cases found : state.past[index]? with
  | none => exact ⟨valid.formed, (Database.Extends.refl _).precedes⟩
  | some past =>
    have earlier := valid.earlier past (List.mem_of_getElem? found)
    exact ⟨earlier.1, earlier.2.precedes⟩

/-! ## What a step can do -/

def Event.caller? : Event → Option Nat
  | .begin caller _ _ | .reserve caller _ _ | .abort caller | .dispatch caller _ _
  | .execute caller _ | .reconcile caller _ | .abandon caller => some caller
  | _ => none

/-- A call takes its next phase, with what it created, sent or settled on the way; or something
else uses the store. -/
inductive State.Outcome (state : State) : Event → State → Prop where
  | begins {caller : Nat} {call attemptId} :
      Outcome state (.begin caller call attemptId)
        (state.setCall caller (.reserving call attemptId 0))
  | retries {caller : Nat} {call attemptId aborts}
      (reserving : state.calls caller = .reserving call attemptId aborts) :
      Outcome state (.abort caller)
        (state.setCall caller (.reserving call attemptId (aborts + 1)))
  | returns {event : Event} {caller : Nat} (acts : event.caller? = some caller) :
      Outcome state event (state.setCall caller .returned)
  | replays {event : Event} {caller : Nat} (acts : event.caller? = some caller) :
      Outcome state event ((state.advance state.db).setCall caller .returned)
  | admits {caller : Nat} {rows : Rows} {now fresh call attemptId aborts decision middle db}
      (reserving : state.calls caller = .reserving call attemptId aborts)
      (version : decision.lockVersion = 0) (moves : Moves (· = .prepare) state.db middle)
      (admits : Admits decision.attemptId (call.admission attemptId) rows middle db) :
      Outcome state (.reserve caller now fresh)
        { (state.advance db).setCall caller (.admitted call decision) with
          created := ((call.admission 0).claimKey, decision.attemptId) :: state.created }
  | dispatches {caller : Nat} {stamp backendRequestId call decision old new db}
      (admitted : state.calls caller = .admitted call decision)
      (rewrites : Rewrites .dispatch decision.attemptId state.db db old new) :
      Outcome state (.dispatch caller stamp backendRequestId)
        { (state.advance db).setCall caller
            (.dispatched call decision.attemptId backendRequestId) with
          dispatched := ((call.admission 0).claimKey, decision.attemptId) :: state.dispatched }
  | executes {caller : Nat} {id : UUID} {reply call backendRequestId}
      (dispatched : state.calls caller = .dispatched call id backendRequestId) :
      Outcome state (.execute caller reply)
        { state.setCall caller (.replied id reply.actual (reply.outcome call backendRequestId)) with
          executed := ((call.admission 0).claimKey, id) :: state.executed }
  | settles {caller : Nat} {id : UUID} {stamp actual outcome old new db}
      (replied : state.calls caller = .replied id actual outcome)
      (rewrites : Rewrites (.settle actual) id state.db db old new) :
      Outcome state (.reconcile caller stamp) ((state.advance db).setCall caller .returned)
  | fails {event : Event} (outside : event.caller? = none) : Outcome state event state
  | stores {event : Event} {db} (outside : event.caller? = none)
      (moves : Moves event.allows state.db db) : Outcome state event (state.advance db)

section Outcomes

variable {next : State}

theorem State.attempt_outcome {result : Except StoreError Database}
    (outside : event.caller? = none)
    (moves : ∀ db, result = .ok db → Moves event.allows state.db db) :
    state.Outcome event (state.attempt result) := by
  cases result with
  | error error => exact .fails outside
  | ok db => exact .stores outside (moves db rfl)

theorem step_outcome (valid : state.Valid) (stepped : state.step event = some next) :
    state.Outcome event next := by
  have formed := valid.formed
  cases event with
  | begin caller call attemptId =>
    simp only [State.step] at stepped
    split at stepped <;> cases stepped
    exact .begins
  | reserve caller now fresh =>
    simp only [State.step] at stepped
    split at stepped <;> cases stepped
    next call attemptId aborts reserving =>
      cases done : Store.reserveOnce state.db now fresh (call.admission attemptId) with
      | error error => exact .returns rfl
      | ok result =>
        obtain ⟨decision, db⟩ := result
        rcases reserveOnce_cases formed done with
          ⟨replay, rfl⟩ | ⟨admitted, ⟨version, -⟩, middle, rows, moves, admits⟩
        · simp only [State.reserve, replay, if_true]
          exact .replays rfl
        · simp only [State.reserve, admitted]
          exact .admits reserving version moves admits
  | abort caller =>
    simp only [State.step] at stepped
    split at stepped <;> cases stepped
    next call attemptId aborts reserving =>
      split
      next => exact .retries reserving
      next => exact .returns rfl
  | dispatch caller stamp backendRequestId =>
    simp only [State.step] at stepped
    split at stepped <;> cases stepped
    next call decision admitted =>
      cases done : Store.markRunning state.db stamp decision.attemptId backendRequestId
          (call.timeout + second) decision.lockVersion with
      | error error => exact .returns rfl
      | ok db =>
        obtain ⟨old, new, rewrites⟩ := markRunning_rewrites formed done
        exact .dispatches admitted rewrites
  | execute caller reply =>
    simp only [State.step] at stepped
    split at stepped
    next dispatched =>
      split at stepped <;> cases stepped
      exact .executes dispatched
    next => cases stepped
  | reconcile caller stamp =>
    simp only [State.step] at stepped
    split at stepped <;> cases stepped
    next id actual outcome replied =>
      cases done : Store.reconcile state.db stamp id actual outcome with
      | error error => exact .returns rfl
      | ok db =>
        rcases reconcile_rewrites formed done with rfl | ⟨old, new, rewrites⟩
        · exact .replays rfl
        · exact .settles replied rewrites
  | abandon caller =>
    cases stepped
    exact .returns rfl
  | audit entry =>
    cases stepped
    exact State.attempt_outcome rfl fun db done => .single (appendAudit_move done) rfl
  | maintain now =>
    cases stepped
    refine State.attempt_outcome rfl fun db done => ?_
    rw [maintain_eq formed done]
    exact .refl
  | markStaleAndClaim admissions dispatches stamp now admittedBefore worker lease limit locked =>
    cases stepped
    refine State.attempt_outcome rfl fun db committed => ?_
    obtain ⟨candidates, done⟩ := map_snd_eq_ok committed
    exact markStaleAndClaim_moves formed (valid.snapshot admissions) (valid.snapshot dispatches)
      done
  | applyOwnerEvidence stamp id worker evidence =>
    cases stepped
    refine State.attempt_outcome rfl fun db done => ?_
    rcases applyOwnerEvidence_rewrites formed done with
      rfl | ⟨old, new, rewrites⟩ | ⟨-, old, new, rewrites⟩
    · exact .refl
    · exact .single (.rewrite rewrites) (.inl rfl)
    · exact .single (.rewrite rewrites) (.inr rfl)
  | expireUnknown seen now unknownBefore limit =>
    cases stepped
    exact State.attempt_outcome rfl fun db done =>
      expireUnknown_moves formed (valid.snapshot seen) done
  | insertVerifiedEvidence input =>
    cases stepped
    refine State.attempt_outcome rfl fun db committed => ?_
    obtain ⟨result, done⟩ := map_snd_eq_ok committed
    rcases insertVerifiedEvidence_move formed done with rfl | move
    · exact .refl
    · exact .single move rfl
  | lateCompensate seen stamp id ref expectedRevision =>
    cases stepped
    refine State.attempt_outcome rfl fun db committed => ?_
    obtain ⟨result, done⟩ := map_snd_eq_ok committed
    rcases lateCompensate_move formed done with
      rfl | note | ⟨-, -, ⟨-, violate⟩ | ⟨inserted, compensate⟩⟩
    · exact .refl
    · exact .single note (.inl rfl)
    · exact .single violate (.inr (.inl rfl))
    · exact .single compensate (.inr (.inr ⟨inserted, rfl⟩))

/-- Every event commits a chain of moves of its own kinds. -/
theorem step_moves (valid : state.Valid) (stepped : state.step event = some next) :
    Moves event.allows state.db next.db := by
  cases step_outcome valid stepped with
  | begins | retries | returns | replays | executes | fails => exact .refl
  | admits _ _ moves admits =>
    refine Moves.trans (Relation.ReflTransGen.mono ?_ _ _ moves)
      (.single (.admission admits) (.inr rfl))
    rintro a b ⟨kind, prepare, move⟩
    exact ⟨kind, .inl prepare, move⟩
  | dispatches _ rewrites => exact .single (.rewrite rewrites) rfl
  | @settles _ _ _ actual _ _ _ _ _ rewrites => exact .single (.rewrite rewrites) ⟨actual, rfl⟩
  | stores _ moves => exact moves

/-! ## The invariant of a run -/

theorem step_past (valid : state.Valid) (stepped : state.step event = some next) :
    next.past = state.past ∨ next.past = state.past ++ [state.db] := by
  cases step_outcome valid stepped with
  | begins | retries | returns | executes | fails => exact .inl rfl
  | replays | admits | dispatches | settles | stores => exact .inr rfl

theorem update_cases {calls : Nat → Phase} {acting : Nat} {phase reached : Phase}
    (updated : Function.update calls acting phase caller = reached) :
    calls caller = reached ∨ (caller = acting ∧ phase = reached) := by
  by_cases same : caller = acting
  · subst same
    rw [Function.update_self] at updated
    exact .inr ⟨rfl, updated⟩
  · rw [Function.update_of_ne same] at updated
    exact .inl updated

/-- The acting call follows its attempt after the step; the others keep their phase. -/
theorem step_calls (valid : state.Valid) (stepped : state.step event = some next)
    (caller : Nat) :
    next.calls caller = state.calls caller ∨ (next.calls caller).Follows next.db := by
  have update : ∀ {acting : Nat} {phase : Phase} {db : Database}, phase.Follows db →
      Function.update state.calls acting phase caller = state.calls caller ∨
        (Function.update state.calls acting phase caller).Follows db := by
    intro acting phase db follows
    rcases update_cases (rfl : Function.update state.calls acting phase caller = _) with
      same | ⟨-, reached⟩
    · exact .inl same.symm
    · exact .inr (reached ▸ follows)
  cases step_outcome valid stepped with
  | begins | retries | returns | replays | settles => exact update trivial
  | admits _ version _ admits => exact update ⟨version, _, admits.holds, admits.owns⟩
  | @dispatches acting _ _ _ _ _ _ _ admitted rewrites =>
    have follows := valid.follows acting
    rw [admitted] at follows
    obtain ⟨-, rows, held, owns⟩ := follows
    obtain rfl := rewrites.touch.held.unique held
    obtain ⟨later, still, kept⟩ := (Move.rewrite rewrites).extends _ _ held
    obtain rfl := rewrites.touch.holds.unique still
    exact update ⟨_, still, owns.kept kept, rewrites.change.not_admitted⟩
  | @executes acting _ _ _ _ dispatched =>
    have follows := valid.follows acting
    rw [dispatched] at follows
    obtain ⟨rows, held, -, sent⟩ := follows
    exact update ⟨rfl, rfl, Int.natCast_nonneg _, rows, held, sent⟩
  | fails | stores => exact .inl rfl

theorem step_valid (valid : state.Valid) (stepped : state.step event = some next) :
    next.Valid := by
  have moves := step_moves valid stepped
  have grown := moves.extends valid.formed
  refine ⟨moves.wellFormed valid.formed, ?_, ?_⟩
  · have older : ∀ past ∈ state.past, past.WellFormed ∧ past.Extends next.db :=
      fun past member => ⟨(valid.earlier past member).1, (valid.earlier past member).2.trans grown⟩
    intro past member
    rcases step_past valid stepped with same | longer
    · exact older past (same ▸ member)
    · rw [longer] at member
      rcases List.mem_append.mp member with before | last
      · exact older past before
      · rw [List.mem_singleton.mp last]
        exact ⟨valid.formed, grown⟩
  · intro caller
    rcases step_calls valid stepped caller with same | follows
    · rw [same]
      exact (valid.follows caller).extends grown
    · exact follows

theorem reachable_valid {guard : State → Event → Prop} (reached : runtime.Reachable guard state) :
    state.Valid := by
  refine reached.induction ?_ fun _ _ _ _ valid _ stepped => step_valid valid stepped
  rintro _ ⟨manifests, -, rfl⟩
  exact State.initial_valid manifests

theorem steps_extends {guard : State → Event → Prop} {state later : State}
    (reached : runtime.Reachable guard state) (steps : runtime.Steps guard state later) :
    state.db.Extends later.db := by
  refine System.Steps.induction (R := fun source target => source.db.Extends target.db) reached
    steps (fun state => .refl state.db) (fun _ _ _ => Database.Extends.trans) ?_
  intro source event target before _ stepped
  have valid := reachable_valid before
  exact (step_moves valid stepped).extends valid.formed

end Outcomes

/-! ## Where attempts come from -/

/-- An attempt that is new after a step was admitted by it, for the call that reserves. -/
theorem step_new {state next : State} (valid : state.Valid) (stepped : state.step event = some next)
    (absent : state.db.Absent id) (held : next.db.Holds id rows) :
    ∃ caller now fresh call attemptId aborts middle,
      event = .reserve caller now fresh ∧ state.calls caller = .reserving call attemptId aborts ∧
        Moves (· = .prepare) state.db middle ∧
        Admits id (call.admission attemptId) rows middle next.db := by
  cases step_outcome valid stepped with
  | @admits caller _ now fresh call attemptId aborts decision middle _ reserving _ moves admits =>
    have gone := moves.absent valid.formed (by rintro _ rfl; nofun) absent
    have same : id = decision.attemptId := by
      by_contra differ
      exact (admits.absent_of_ne differ gone).not_holds held
    subst same
    obtain rfl := admits.holds.unique held
    exact ⟨caller, now, fresh, call, attemptId, aborts, middle, rfl, reserving, moves, admits⟩
  | begins | retries | returns | replays | executes | fails => exact (absent.not_holds held).elim
  | dispatches _ rewrites | settles _ rewrites =>
    exact ((rewrites.touch.absent absent).not_holds held).elim
  | stores outside moves =>
    refine ((moves.absent valid.formed ?_ absent).not_holds held).elim
    rintro kind allowed rfl
    obtain ⟨_, _, _, rfl⟩ := Event.reserve_of_allows allowed
    cases outside

theorem step_origin {state next : State} (valid : state.Valid)
    (stepped : state.step event = some next) (held : next.db.Holds id rows) :
    (∃ old, state.db.Holds id old ∧ old.Kept rows) ∨ state.db.Absent id := by
  rcases valid.formed.governed id with ⟨old, was, -⟩ | absent
  · obtain ⟨later, still, kept⟩ := (step_moves valid stepped).extends valid.formed _ _ was
    obtain rfl := still.unique held
    exact .inl ⟨old, was, kept⟩
  · exact .inr absent

theorem step_reserving {state next : State} (valid : state.Valid)
    (stepped : state.step event = some next) {call : Invocation} {attemptId : UUID} {aborts : Nat}
    (phase : next.calls caller = .reserving call attemptId aborts) :
    event = .begin caller call attemptId ∨
      ∃ earlier, state.calls caller = .reserving call attemptId earlier := by
  cases step_outcome valid stepped with
  | begins =>
    rcases update_cases phase with same | ⟨rfl, reached⟩
    · exact .inr ⟨aborts, same⟩
    · cases reached
      exact .inl rfl
  | @retries _ _ _ earlier reserving =>
    rcases update_cases phase with same | ⟨rfl, reached⟩
    · exact .inr ⟨aborts, same⟩
    · cases reached
      exact .inr ⟨earlier, reserving⟩
  | returns | replays | admits | dispatches | executes | settles =>
    rcases update_cases phase with same | ⟨-, reached⟩
    · exact .inr ⟨aborts, same⟩
    · cases reached
  | fails | stores => exact .inr ⟨aborts, phase⟩

theorem step_replied {state next : State} (valid : state.Valid)
    (stepped : state.step event = some next) {actual : Cost}
    {outcome : AttemptOutcome} (phase : next.calls caller = .replied id actual outcome) :
    state.calls caller = .replied id actual outcome ∨ ∃ reply call backendRequestId,
      event = .execute caller reply ∧ state.calls caller = .dispatched call id backendRequestId ∧
        actual = reply.actual := by
  cases step_outcome valid stepped with
  | @executes _ _ reply call backendRequestId dispatched =>
    rcases update_cases phase with same | ⟨rfl, reached⟩
    · exact .inl same
    · cases reached
      exact .inr ⟨reply, call, backendRequestId, rfl, dispatched, rfl⟩
  | begins | retries | returns | replays | admits | dispatches | settles =>
    rcases update_cases phase with same | ⟨-, reached⟩
    · exact .inl same
    · cases reached
  | fails | stores => exact .inl phase

/-- Every attempt was admitted for a call that the guard let begin. -/
theorem reachable_owned {guard : State → Event → Prop} {P : Invocation → Prop}
    (asked : ∀ state caller call attemptId, guard state (.begin caller call attemptId) → P call)
    (reached : runtime.Reachable guard state) :
    (∀ caller call attemptId aborts,
        state.calls caller = .reserving call attemptId aborts → P call) ∧
      ∀ id rows, state.db.Holds id rows → ∃ call, P call ∧ call.Owns rows := by
  refine reached.induction (P := fun state => (∀ caller call attemptId aborts,
      state.calls caller = .reserving call attemptId aborts → P call) ∧
    ∀ id rows, state.db.Holds id rows → ∃ call, P call ∧ call.Owns rows) ?_ ?_
  · rintro _ ⟨manifests, -, rfl⟩
    constructor
    · exact nofun
    · intro id rows held
      cases held.attempt
  · intro before event after earlier ⟨phases, owned⟩ allowed stepped
    have valid := reachable_valid earlier
    constructor
    · intro caller call attemptId aborts phase
      rcases step_reserving valid stepped phase with rfl | ⟨was, same⟩
      · exact asked before caller call attemptId allowed
      · exact phases caller call attemptId was same
    · intro id rows held
      rcases step_origin valid stepped held with ⟨old, was, kept⟩ | absent
      · obtain ⟨call, asked, owns⟩ := owned id old was
        exact ⟨call, asked, owns.kept kept⟩
      · obtain ⟨caller, _, _, call, attemptId, aborts, _, _, phase, _, admits⟩ :=
          step_new valid stepped absent held
        exact ⟨call, phases caller call attemptId aborts phase, admits.owns⟩

/-! ## Invariants of the database -/

def Kind.ordinary : Kind → Prop
  | .settle _ | .violate _ => False
  | _ => True

theorem step_reconcile {state next : State} {stamp : Time} (valid : state.Valid)
    (stepped : state.step (.reconcile caller stamp) = some next) :
    next.db = state.db ∨ ∃ id actual outcome old new,
      state.calls caller = .replied id actual outcome ∧
        Rewrites (.settle actual) id state.db next.db old new := by
  cases step_outcome valid stepped with
  | settles replied rewrites => exact .inr ⟨_, _, _, _, _, replied, rewrites⟩
  | returns | replays | fails => exact .inl rfl
  | stores outside => cases outside

theorem step_lateCompensate {state next : State} {seen : Nat} {stamp : Time} {id ref : UUID}
    {expectedRevision : Int} (valid : state.Valid)
    (stepped : state.step (.lateCompensate seen stamp id ref expectedRevision) = some next) :
    next.db = state.db ∨ (∃ kind : Kind, kind.ordinary ∧ Move kind state.db next.db) ∨
      (state.db.violation id ref ≠ none ∧
        (∃ row, state.db.evidence.get ref = some row ∧ row.attemptId = id) ∧
        Move (.violate ref) state.db next.db) := by
  cases stepped
  cases committed : (Store.lateCompensate (state.snapshot seen) state.db stamp id ref
      expectedRevision).map (·.2) with
  | error error => exact .inl rfl
  | ok db =>
    obtain ⟨result, done⟩ := map_snd_eq_ok committed
    rcases lateCompensate_move valid.formed done with
      rfl | note | ⟨-, named, ⟨violation, violate⟩ | ⟨inserted, compensate⟩⟩
    · exact .inl rfl
    · exact .inr (.inl ⟨.note, trivial, note⟩)
    · exact .inr (.inr ⟨violation, named, violate⟩)
    · exact .inr (.inl ⟨.compensate ref inserted, trivial, compensate⟩)

theorem Event.allows_ordinary {kind : Kind} (allowed : event.allows kind)
    (settles : ∀ caller stamp, event ≠ .reconcile caller stamp)
    (compensates : ∀ seen stamp id ref revision,
      event ≠ .lateCompensate seen stamp id ref revision) : kind.ordinary := by
  cases event with
  | reconcile caller stamp => exact absurd rfl (settles caller stamp)
  | lateCompensate seen stamp id ref revision =>
    exact absurd rfl (compensates seen stamp id ref revision)
  | reserve => rcases allowed with rfl | rfl <;> trivial
  | markStaleAndClaim => rcases allowed with rfl | rfl | rfl <;> trivial
  | applyOwnerEvidence => rcases allowed with rfl | rfl <;> trivial
  | dispatch | audit | expireUnknown | insertVerifiedEvidence =>
    cases allowed
    trivial
  | begin | abort | execute | abandon | maintain => exact allowed.elim

section Invariant

variable {P : Database → Prop} {guard : State → Event → Prop}

/-- A property of the database that ordinary moves preserve, and that settlement and
violation preserve where the guard admits them, is preserved by every guarded step. -/
theorem step_preserves (guard : State → Event → Prop)
    (ordinary : ∀ kind before after, Kind.ordinary kind → before.WellFormed →
      Move kind before after → P before → P after)
    (settle : ∀ state caller stamp id actual outcome after old new, state.Valid →
      guard state (.reconcile caller stamp) → state.calls caller = .replied id actual outcome →
      Rewrites (.settle actual) id state.db after old new → P state.db → P after)
    (violate : ∀ state seen stamp id ref revision after, state.Valid →
      guard state (.lateCompensate seen stamp id ref revision) →
      state.db.violation id ref ≠ none →
      (∃ row, state.db.evidence.get ref = some row ∧ row.attemptId = id) →
      Move (.violate ref) state.db after → P state.db → P after) {state next : State}
    (valid : state.Valid) (allowed : guard state event) (stepped : state.step event = some next)
    (holds : P state.db) : P next.db := by
  by_cases settles : ∃ caller stamp, event = .reconcile caller stamp
  · obtain ⟨caller, stamp, rfl⟩ := settles
    rcases step_reconcile valid stepped with same | ⟨id, actual, outcome, old, new, phase, rewrites⟩
    · rw [same]
      exact holds
    · exact settle state caller stamp id actual outcome _ old new valid allowed phase rewrites holds
  · by_cases compensates : ∃ seen stamp id ref revision,
        event = .lateCompensate seen stamp id ref revision
    · obtain ⟨seen, stamp, id, ref, revision, rfl⟩ := compensates
      rcases step_lateCompensate valid stepped with
        same | ⟨kind, usual, move⟩ | ⟨violation, row, move⟩
      · rw [same]
        exact holds
      · exact ordinary kind _ _ usual valid.formed move holds
      · exact violate state seen stamp id ref revision _ valid allowed violation row move holds
    · refine (step_moves valid stepped).invariant valid.formed holds ?_
      intro kind before after member formed move held
      refine ordinary kind before after (Event.allows_ordinary member ?_ ?_) formed move held
      · exact fun caller stamp same => settles ⟨caller, stamp, same⟩
      · exact fun seen stamp id ref revision same =>
          compensates ⟨seen, stamp, id, ref, revision, same⟩

theorem reachable_invariant
    (start : ∀ manifests, (∀ checksum ∈ manifests, hexDigest checksum = true) →
      P (.migrated manifests))
    (ordinary : ∀ kind before after, Kind.ordinary kind → before.WellFormed →
      Move kind before after → P before → P after)
    (settle : ∀ state caller stamp id actual outcome after old new, state.Valid →
      guard state (.reconcile caller stamp) → state.calls caller = .replied id actual outcome →
      Rewrites (.settle actual) id state.db after old new → P state.db → P after)
    (violate : ∀ state seen stamp id ref revision after, state.Valid →
      guard state (.lateCompensate seen stamp id ref revision) →
      state.db.violation id ref ≠ none →
      (∃ row, state.db.evidence.get ref = some row ∧ row.attemptId = id) →
      Move (.violate ref) state.db after → P state.db → P after)
    (reached : runtime.Reachable guard state) : P state.db := by
  refine reached.induction (P := fun state => P state.db) ?_ ?_
  · rintro _ ⟨manifests, checked, rfl⟩
    exact start manifests checked
  · intro before event after earlier holds allowed stepped
    exact step_preserves guard ordinary settle violate (reachable_valid earlier) allowed
      stepped holds

end Invariant

end OufMcp.Ledger
