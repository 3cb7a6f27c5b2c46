import OufMcp.Ledger.Steps

/-!
# At most one dispatch per idempotency tuple

The run records what it issues: attempts created, dispatches that succeeded and
gateway calls made, each with its tuple.  A tuple is issued at most once in each
record, and a later `Reserve` on it is decided by the stored claim alone.
-/

namespace OufMcp.Ledger

open Relational Transition

def Invocation.tuple (call : Invocation) : ClaimKey := (call.admission 0).claimKey

/-! ## What a step issues -/

/-- Every call that waits for its reply after a step waited before. -/
def State.Waiting (state next : State) : Prop :=
  ∀ caller call id backendRequestId, next.calls caller = .dispatched call id backendRequestId →
    state.calls caller = .dispatched call id backendRequestId

structure State.Quiet (state next : State) : Prop where
  created : next.created = state.created
  dispatched : next.dispatched = state.dispatched
  executed : next.executed = state.executed
  absent : ∀ id, state.db.Absent id → next.db.Absent id
  waiting : state.Waiting next

structure State.Creates (state next : State) (call : Invocation) (id : UUID) : Prop where
  created : next.created = (call.tuple, id) :: state.created
  dispatched : next.dispatched = state.dispatched
  executed : next.executed = state.executed
  admits : ∃ attemptId middle rows, Moves (· = .prepare) state.db middle ∧
    Admits id (call.admission attemptId) rows middle next.db
  waiting : state.Waiting next

structure State.Dispatches (state next : State) (call : Invocation) (id : UUID) : Prop where
  created : next.created = state.created
  dispatched : next.dispatched = (call.tuple, id) :: state.dispatched
  executed : next.executed = state.executed
  rewrites : ∃ old new, call.Owns old ∧ Rewrites .dispatch id state.db next.db old new
  waiting : ∃ caller backendRequestId, next.calls =
    Function.update state.calls caller (.dispatched call id backendRequestId)

structure State.Executes (state next : State) (call : Invocation) (id : UUID) : Prop where
  created : next.created = state.created
  dispatched : next.dispatched = state.dispatched
  executed : next.executed = (call.tuple, id) :: state.executed
  db : next.db = state.db
  waiting : ∃ caller backendRequestId actual outcome,
    state.calls caller = .dispatched call id backendRequestId ∧
      next.calls = Function.update state.calls caller (.replied id actual outcome)

theorem State.waiting_update {state next : State} {acting : Nat} {phase : Phase}
    (updated : next.calls = Function.update state.calls acting phase)
    (other : ∀ call id backendRequestId, phase ≠ .dispatched call id backendRequestId) :
    state.Waiting next := by
  intro caller call id backendRequestId waits
  rw [updated] at waits
  rcases update_cases waits with same | ⟨-, reached⟩
  · exact same
  · exact absurd reached (other call id backendRequestId)

/-- What a step issues: nothing, an attempt, a dispatch or a gateway call. -/
theorem step_issues {state next : State} {event : Event} (valid : state.Valid)
    (stepped : state.step event = some next) :
    state.Quiet next ∨ ∃ call id, state.Creates next call id ∨ state.Dispatches next call id ∨
      state.Executes next call id := by
  cases step_outcome valid stepped with
  | begins | retries | returns | replays =>
    exact .inl ⟨rfl, rfl, rfl, fun _ gone => gone, State.waiting_update rfl (by simp)⟩
  | @admits _ rows _ _ call attemptId _ decision middle _ _ _ moves admits =>
    exact .inr ⟨call, decision.attemptId, .inl ⟨rfl, rfl, rfl,
      ⟨attemptId, middle, rows, moves, admits⟩, State.waiting_update rfl (by simp)⟩⟩
  | @dispatches caller _ backendRequestId call decision old new _ admitted rewrites =>
    have follows := valid.follows caller
    rw [admitted] at follows
    obtain ⟨-, rows, held, owns⟩ := follows
    obtain rfl := rewrites.touch.held.unique held
    exact .inr ⟨call, decision.attemptId, .inr (.inl ⟨rfl, rfl, rfl, ⟨_, new, owns, rewrites⟩,
      caller, backendRequestId, rfl⟩)⟩
  | @executes caller id _ call backendRequestId dispatched =>
    exact .inr ⟨call, id, .inr (.inr ⟨rfl, rfl, rfl, rfl, caller, backendRequestId, _, _,
      dispatched, rfl⟩)⟩
  | settles _ rewrites =>
    exact .inl ⟨rfl, rfl, rfl, fun _ => rewrites.touch.absent, State.waiting_update rfl (by simp)⟩
  | fails => exact .inl ⟨rfl, rfl, rfl, fun _ gone => gone, fun _ _ _ _ waits => waits⟩
  | stores outside moves =>
    refine .inl ⟨rfl, rfl, rfl, fun _ => moves.absent valid.formed ?_, fun _ _ _ _ waits => waits⟩
    rintro kind allowed rfl
    obtain ⟨_, _, _, rfl⟩ := Event.reserve_of_allows allowed
    cases outside

/-! ## The records of a run -/

/-- Nothing is recorded twice, and the records agree with the database and the calls. -/
structure State.Once (state : State) : Prop where
  created : ∀ entry ∈ state.created, ∃ rows, state.db.Holds entry.2 rows ∧
    rows.claim.key = entry.1
  complete : ∀ id rows, state.db.Holds id rows → (rows.claim.key, id) ∈ state.created
  createdOnce : state.created.Nodup
  dispatched : ∀ entry ∈ state.dispatched, ∃ rows, state.db.Holds entry.2 rows ∧
    rows.claim.key = entry.1 ∧ rows.attempt.state ≠ .admitted
  dispatchedOnce : state.dispatched.Nodup
  executed : ∀ entry ∈ state.executed, entry ∈ state.dispatched
  executedOnce : state.executed.Nodup
  waiting : ∀ caller call id backendRequestId,
    state.calls caller = .dispatched call id backendRequestId →
      (call.tuple, id) ∈ state.dispatched ∧ (call.tuple, id) ∉ state.executed
  apart : ∀ first second call other id one two,
    state.calls first = .dispatched call id one → state.calls second = .dispatched other id two →
      first = second

theorem State.initial_once (manifests : List String) : (State.initial manifests).Once where
  created _ impossible := by cases impossible
  complete id rows held := by cases held.attempt
  createdOnce := List.nodup_nil
  dispatched _ impossible := by cases impossible
  dispatchedOnce := List.nodup_nil
  executed _ impossible := by cases impossible
  executedOnce := List.nodup_nil
  waiting _ _ _ _ impossible := by cases impossible
  apart _ _ _ _ _ _ _ impossible := by cases impossible

namespace State.Once

variable {state next : State} {call : Invocation} {id : UUID}

theorem created_later (once : state.Once) {db : Database} (grown : state.db.Extends db)
    {entry : ClaimKey × UUID} (member : entry ∈ state.created) :
    ∃ rows, db.Holds entry.2 rows ∧ rows.claim.key = entry.1 := by
  obtain ⟨rows, held, key⟩ := once.created entry member
  obtain ⟨later, arrived, kept⟩ := grown _ _ held
  exact ⟨later, arrived, kept.claimKey.trans key⟩

theorem complete_later (once : state.Once) {db : Database} (grown : state.db.Extends db)
    {key : UUID} {old rows : Rows} (was : state.db.Holds key old) (held : db.Holds key rows) :
    (rows.claim.key, key) ∈ state.created := by
  obtain ⟨later, arrived, kept⟩ := grown _ _ was
  obtain rfl := arrived.unique held
  exact kept.claimKey ▸ once.complete key old was

theorem dispatched_later (once : state.Once) {db : Database} (grown : state.db.Extends db)
    {entry : ClaimKey × UUID} (member : entry ∈ state.dispatched) :
    ∃ rows, db.Holds entry.2 rows ∧ rows.claim.key = entry.1 ∧
      rows.attempt.state ≠ .admitted := by
  obtain ⟨rows, held, key, sent⟩ := once.dispatched entry member
  obtain ⟨later, arrived, kept⟩ := grown _ _ held
  exact ⟨later, arrived, kept.claimKey.trans key, kept.sent sent⟩

theorem quiet (once : state.Once) (valid : state.Valid) (grown : state.db.Extends next.db)
    (quiet : state.Quiet next) : next.Once where
  created := by
    rw [quiet.created]
    exact fun entry member => once.created_later grown member
  complete key rows held := by
    rw [quiet.created]
    rcases valid.formed.governed key with ⟨old, was, -⟩ | absent
    · exact once.complete_later grown was held
    · exact ((quiet.absent key absent).not_holds held).elim
  createdOnce := by rw [quiet.created]; exact once.createdOnce
  dispatched := by
    rw [quiet.dispatched]
    exact fun entry member => once.dispatched_later grown member
  dispatchedOnce := by rw [quiet.dispatched]; exact once.dispatchedOnce
  executed := by rw [quiet.executed, quiet.dispatched]; exact once.executed
  executedOnce := by rw [quiet.executed]; exact once.executedOnce
  waiting caller call id backendRequestId waits := by
    rw [quiet.executed, quiet.dispatched]
    exact once.waiting caller call id backendRequestId (quiet.waiting _ _ _ _ waits)
  apart _ _ _ _ _ _ _ one two :=
    once.apart _ _ _ _ _ _ _ (quiet.waiting _ _ _ _ one) (quiet.waiting _ _ _ _ two)

theorem creates (once : state.Once) (valid : state.Valid) (grown : state.db.Extends next.db)
    (creates : state.Creates next call id) : next.Once := by
  obtain ⟨attemptId, middle, new, moves, admits⟩ := creates.admits
  constructor
  · rw [creates.created]
    intro entry member
    rcases List.mem_cons.mp member with rfl | earlier
    · exact ⟨new, admits.holds, admits.owns.key⟩
    · exact once.created_later grown earlier
  · intro key rows held
    rw [creates.created]
    rcases valid.formed.governed key with ⟨old, was, -⟩ | absent
    · exact List.mem_cons_of_mem _ (once.complete_later grown was held)
    · have gone := moves.absent valid.formed (by rintro _ rfl impossible; cases impossible) absent
      have same : key = id := by
        by_contra differ
        exact (admits.absent_of_ne differ gone).not_holds held
      subst same
      obtain rfl := admits.holds.unique held
      rw [admits.owns.key]
      exact List.mem_cons_self
  · rw [creates.created, List.nodup_cons]
    refine ⟨fun member => ?_, once.createdOnce⟩
    obtain ⟨rows, held, -⟩ := once.created _ member
    obtain ⟨later, there, -⟩ := moves.extends valid.formed _ _ held
    exact admits.absent.not_holds there
  · rw [creates.dispatched]
    exact fun entry member => once.dispatched_later grown member
  · rw [creates.dispatched]
    exact once.dispatchedOnce
  · rw [creates.executed, creates.dispatched]
    exact once.executed
  · rw [creates.executed]
    exact once.executedOnce
  · intro caller call id backendRequestId waits
    rw [creates.executed, creates.dispatched]
    exact once.waiting caller call id backendRequestId (creates.waiting _ _ _ _ waits)
  · exact fun _ _ _ _ _ _ _ one two =>
      once.apart _ _ _ _ _ _ _ (creates.waiting _ _ _ _ one) (creates.waiting _ _ _ _ two)

theorem undispatched (once : state.Once) {rows : Rows} (held : state.db.Holds id rows)
    (admitted : rows.attempt.state = .admitted) (key : ClaimKey) :
    (key, id) ∉ state.dispatched := by
  intro member
  obtain ⟨other, there, -, sent⟩ := once.dispatched _ member
  obtain rfl := there.unique held
  exact sent admitted

theorem dispatches (once : state.Once) (valid : state.Valid) (grown : state.db.Extends next.db)
    (dispatches : state.Dispatches next call id) : next.Once := by
  obtain ⟨old, new, owns, rewrites⟩ := dispatches.rewrites
  obtain ⟨acting, request, calls⟩ := dispatches.waiting
  have admitted : old.attempt.state = .admitted := by
    cases rewrites.change
    assumption
  have fresh := once.undispatched rewrites.touch.held admitted
  -- No call waits for the attempt that this step dispatches.
  have idle : ∀ caller other backendRequestId,
      state.calls caller ≠ .dispatched other id backendRequestId :=
    fun caller other backendRequestId waits =>
      fresh other.tuple (once.waiting caller other id backendRequestId waits).1
  constructor
  · rw [dispatches.created]
    exact fun entry member => once.created_later grown member
  · intro key rows held
    rw [dispatches.created]
    rcases valid.formed.governed key with ⟨earlier, was, -⟩ | absent
    · exact once.complete_later grown was held
    · exact ((rewrites.touch.absent absent).not_holds held).elim
  · rw [dispatches.created]
    exact once.createdOnce
  · rw [dispatches.dispatched]
    intro entry member
    rcases List.mem_cons.mp member with rfl | earlier
    · exact ⟨new, rewrites.touch.holds, rewrites.change.immutable.2.2.2.2.2.1.trans owns.key,
        rewrites.change.not_admitted⟩
    · exact once.dispatched_later grown earlier
  · rw [dispatches.dispatched, List.nodup_cons]
    exact ⟨fresh call.tuple, once.dispatchedOnce⟩
  · rw [dispatches.executed, dispatches.dispatched]
    exact fun entry member => List.mem_cons_of_mem _ (once.executed entry member)
  · rw [dispatches.executed]
    exact once.executedOnce
  · intro caller other key backendRequestId waits
    rw [dispatches.executed, dispatches.dispatched]
    rw [calls] at waits
    rcases update_cases waits with before | ⟨-, reached⟩
    · obtain ⟨sent, unread⟩ := once.waiting caller other key backendRequestId before
      exact ⟨List.mem_cons_of_mem _ sent, unread⟩
    · cases reached
      exact ⟨List.mem_cons_self, fun member => fresh _ (once.executed _ member)⟩
  · intro first second one two key firstRequest secondRequest left right
    rw [calls] at left right
    rcases update_cases left with early | ⟨rfl, reached⟩
    · rcases update_cases right with late | ⟨-, reached⟩
      · exact once.apart first second one two key firstRequest secondRequest early late
      · cases reached
        exact absurd early (idle first one firstRequest)
    · rcases update_cases right with late | ⟨rfl, -⟩
      · cases reached
        exact absurd late (idle second two secondRequest)
      · rfl

theorem executes (once : state.Once) (executes : state.Executes next call id) : next.Once := by
  obtain ⟨acting, request, actual, outcome, phase, calls⟩ := executes.waiting
  obtain ⟨sent, unread⟩ := once.waiting acting call id request phase
  have waits : ∀ {caller : Nat} {other : Invocation} {key : UUID} {backendRequestId : String},
      next.calls caller = .dispatched other key backendRequestId →
      caller ≠ acting ∧ state.calls caller = .dispatched other key backendRequestId := by
    intro caller other key backendRequestId waiting
    refine ⟨?_, State.waiting_update calls (by simp) _ _ _ _ waiting⟩
    rintro rfl
    rw [calls, Function.update_self] at waiting
    cases waiting
  constructor
  · rw [executes.created, executes.db]
    exact once.created
  · rw [executes.created, executes.db]
    exact once.complete
  · rw [executes.created]
    exact once.createdOnce
  · rw [executes.dispatched, executes.db]
    exact once.dispatched
  · rw [executes.dispatched]
    exact once.dispatchedOnce
  · rw [executes.executed, executes.dispatched]
    intro entry member
    rcases List.mem_cons.mp member with rfl | earlier
    · exact sent
    · exact once.executed entry earlier
  · rw [executes.executed, List.nodup_cons]
    exact ⟨unread, once.executedOnce⟩
  · intro caller other key backendRequestId waiting
    obtain ⟨differ, before⟩ := waits waiting
    obtain ⟨also, unheard⟩ := once.waiting caller other key backendRequestId before
    rw [executes.executed, executes.dispatched]
    refine ⟨also, fun member => ?_⟩
    rcases List.mem_cons.mp member with same | earlier
    · obtain rfl : key = id := congrArg Prod.snd same
      exact differ (once.apart _ _ _ _ _ _ _ before phase)
    · exact unheard earlier
  · intro first second one two key firstRequest secondRequest left right
    exact once.apart first second one two key firstRequest secondRequest (waits left).2
      (waits right).2

end State.Once

theorem reachable_once {guard : State → Event → Prop} {state : State}
    (reached : runtime.Reachable guard state) : state.Once := by
  refine reached.induction (P := State.Once) ?_ ?_
  · rintro _ ⟨manifests, -, rfl⟩
    exact State.initial_once manifests
  · intro before event after earlier once _ stepped
    have valid := reachable_valid earlier
    have grown := (step_moves valid stepped).extends valid.formed
    rcases step_issues valid stepped with quiet | ⟨call, id, creates | dispatches | executes⟩
    · exact once.quiet valid grown quiet
    · exact once.creates valid grown creates
    · exact once.dispatches valid grown dispatches
    · exact once.executes executes

/-! ## Claims of a tuple -/

theorem Database.Holds.id_eq_of_key {db : Database} {one two : UUID} {left right : Rows}
    (first : db.Holds one left) (second : db.Holds two right)
    (same : left.claim.key = right.claim.key) : one = two :=
  db.claims.unique one left.claim two right.claim first.claim second.claim (decide_eq_true same)

theorem length_filter_le_one {α : Type} {list : List α} {accept : α → Bool}
    (distinct : list.Nodup)
    (agree : ∀ a ∈ list, ∀ b ∈ list, accept a = true → accept b = true → a = b) :
    (list.filter accept).length ≤ 1 := by
  have accepted : ∀ a ∈ list.filter accept, a ∈ list ∧ accept a = true :=
    fun a member => List.mem_filter.mp member
  have filtered := distinct.filter accept
  cases shape : list.filter accept with
  | nil => exact Nat.zero_le 1
  | cons a rest =>
    cases rest with
    | nil => exact le_refl 1
    | cons b others =>
      rw [shape] at accepted filtered
      have first := accepted a List.mem_cons_self
      have second := accepted b (List.mem_cons_of_mem _ List.mem_cons_self)
      obtain rfl := agree a first.1 b second.1 first.2 second.2
      exact absurd List.mem_cons_self (List.nodup_cons.mp filtered).1

theorem Database.Holds.claimFor {db : Database} {id : UUID} {rows : Rows}
    (held : db.Holds id rows) : db.claimFor rows.claim.key = some (id, rows.claim) := by
  unfold Database.claimFor
  cases found : db.claims.toList.find? fun entry => decide (entry.2.key = rows.claim.key) with
  | none =>
    have absent := List.find?_eq_none.mp found _ (Table.mem_toList.mpr held.claim)
    simp at absent
  | some entry =>
    obtain ⟨other, claim⟩ := entry
    have stored := Table.mem_toList.mp (List.mem_of_find?_eq_some found)
    have matched := List.find?_some found
    have key : claim.key = rows.claim.key := of_decide_eq_true matched
    obtain rfl := db.claims.unique other claim id rows.claim stored held.claim
      (decide_eq_true key)
    rw [Option.some.inj (stored.symm.trans held.claim)]

theorem reserveOnce_of_claimed {db : Database} {id : UUID} {rows : Rows} (held : db.Holds id rows)
    {req : AdmissionRequest} (tuple : req.claimKey = rows.claim.key)
    (policy : (Store.admissionPolicy req).isOk = true) (now : Time) (fresh : Generated) :
    Store.reserveOnce db now fresh req =
      if rows.claim.requestHash ≠ req.requestHash then .error .idempotencyConflict
      else if rows.attempt.state.uncertain = true then .error .idempotencyOutcomeUnknown
      else .ok ({ attemptId := id, lockVersion := 0, replay := true }, db) := by
  have replay : Store.replayClaim db req id rows.claim =
      if rows.claim.requestHash ≠ req.requestHash then .error .idempotencyConflict
      else if rows.attempt.state.uncertain = true then .error .idempotencyOutcomeUnknown
      else .ok ({ attemptId := id, lockVersion := 0, replay := true }, db) := by
    unfold Store.replayClaim ensure
    rw [held.attempt]
    by_cases hash : rows.claim.requestHash = req.requestHash
    · cases uncertain : rows.attempt.state.uncertain <;>
        simp [hash, demand, bind, Except.bind, pure, Except.pure, uncertain]
    · simp [hash, bind, Except.bind]
  unfold Store.reserveOnce
  cases passed : Store.admissionPolicy req with
  | error error =>
    rw [passed] at policy
    cases policy
  | ok result =>
    rw [tuple, held.claimFor]
    exact replay

theorem State.Once.entry_eq {state : State} (once : state.Once) {one two : ClaimKey × UUID}
    (first : one ∈ state.created) (second : two ∈ state.created) (same : one.1 = two.1) :
    one = two := by
  obtain ⟨left, leftHeld, leftKey⟩ := once.created one first
  obtain ⟨right, rightHeld, rightKey⟩ := once.created two second
  have id := leftHeld.id_eq_of_key rightHeld (by rw [leftKey, rightKey, same])
  exact Prod.ext same id

theorem State.Once.dispatched_created {state : State} (once : state.Once)
    {entry : ClaimKey × UUID} (member : entry ∈ state.dispatched) : entry ∈ state.created := by
  obtain ⟨rows, held, key, -⟩ := once.dispatched entry member
  have stored := once.complete entry.2 rows held
  rwa [key] at stored

theorem State.Once.length_le_one {state : State} (once : state.Once)
    {record : List (ClaimKey × UUID)} (distinct : record.Nodup)
    (issued : ∀ entry ∈ record, entry ∈ state.created) (tuple : ClaimKey) :
    (record.filter fun entry => decide (entry.1 = tuple)).length ≤ 1 := by
  refine length_filter_le_one distinct fun one first two second left right => ?_
  exact once.entry_eq (issued one first) (issued two second)
    ((of_decide_eq_true left).trans (of_decide_eq_true right).symm)

/-- In every run a tuple has at most one attempt, one successful dispatch and one gateway
call; and from then on every `Reserve` on it is decided by the stored claim: a conflict on
another request hash, an unknown outcome while the attempt is uncertain, and otherwise a
replay of that attempt, with the database unchanged. -/
theorem tuple_at_most_once {state : State} (reached : runtime.Reachable System.always state)
    (tuple : ClaimKey) :
    (state.created.filter fun entry => decide (entry.1 = tuple)).length ≤ 1 ∧
    (state.dispatched.filter fun entry => decide (entry.1 = tuple)).length ≤ 1 ∧
    (state.executed.filter fun entry => decide (entry.1 = tuple)).length ≤ 1 ∧
    ∀ id, (tuple, id) ∈ state.created → ∃ claim, state.db.claims.get id = some claim ∧
      claim.key = tuple ∧ ∀ later, runtime.Steps System.always state later →
        ∃ attempt, later.db.attempts.get id = some attempt ∧
          ∀ now fresh req, req.claimKey = tuple → (Store.admissionPolicy req).isOk = true →
            Store.reserveOnce later.db now fresh req =
              if claim.requestHash ≠ req.requestHash then .error .idempotencyConflict
              else if attempt.state.uncertain = true then .error .idempotencyOutcomeUnknown
              else .ok ({ attemptId := id, lockVersion := 0, replay := true }, later.db) := by
  have once := reachable_once reached
  refine ⟨once.length_le_one once.createdOnce (fun _ member => member) tuple,
    once.length_le_one once.dispatchedOnce (fun _ => once.dispatched_created) tuple,
    once.length_le_one once.executedOnce
      (fun entry member => once.dispatched_created (once.executed entry member)) tuple, ?_⟩
  intro id member
  obtain ⟨rows, held, key⟩ := once.created _ member
  refine ⟨rows.claim, held.claim, key, fun later steps => ?_⟩
  obtain ⟨kept, arrived, same⟩ := (steps_extends reached steps) _ _ held
  refine ⟨kept.attempt, arrived.attempt, fun now fresh req asked policy => ?_⟩
  rw [← same.requestHash]
  exact reserveOnce_of_claimed arrived (asked.trans (key.symm.trans same.claimKey.symm)) policy
    now fresh

/-- A call and a second one with the same tuple, which replays. -/
def repeatedCall : List Event :=
  [.begin 0 (searchCall "first" "one" 1) 1, .reserve 0 0 ⟨10, 11, 0⟩, .dispatch 0 0 "backend",
    .begin 1 (searchCall "first" "one" 1) 2, .reserve 1 0 ⟨20, 21, 0⟩, .execute 0 shortReply]

theorem tuple_at_most_once_repeatedCall :
    ∃ state, replayTrace (fun _ _ => true) repeatedCall = some state ∧
      state.calls 1 = .returned ∧
      (state.executed.filter fun entry =>
        decide (entry.1 = (searchCall "first" "one" 1).tuple)).length = 1 ∧
      (state.created.filter fun entry =>
        decide (entry.1 = (searchCall "first" "one" 1).tuple)).length ≤ 1 := by
  obtain ⟨state, replayed, reached, checked⟩ := replayTrace_reachable (fun _ _ => true)
    repeatedCall (fun state => decide (state.calls 1 = .returned ∧
      (state.executed.filter fun entry =>
        decide (entry.1 = (searchCall "first" "one" 1).tuple)).length = 1)) (by decide +kernel)
  obtain ⟨replays, executed⟩ := of_decide_eq_true checked
  exact ⟨state, replayed, replays, executed,
    (tuple_at_most_once (reached.mono fun _ _ _ => trivial) _).1⟩

end OufMcp.Ledger
