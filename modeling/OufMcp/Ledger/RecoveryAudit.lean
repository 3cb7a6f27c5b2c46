import OufMcp.Ledger.Worker

/-!
# What a recovery audit says

A worker audits and counts a decided outcome after `ApplyOwnerEvidence` has
returned without an error.  That is also how it returns when the attempt is no
longer `UNKNOWN`, and nothing is written then.  The audit is true of the runs in
which every decided answer finds its attempt still `UNKNOWN`.
-/

namespace OufMcp.Ledger

open Relational Transition

variable {other : Nat} {evidence : OwnerEvidence} {services : Nat → RecoveryService}

def PoolEvent.worker : PoolEvent → Option Nat
  | .operation _ => none
  | .start worker _ _ _ _ _ | .answer worker _ | .apply worker _ | .audit worker
  | .expire worker _ | .abandon worker => some worker

variable {event : PoolEvent}

def OwnerOutcome.denotes : OwnerOutcome → Option (AttemptState × DispatchState)
  | .succeeded => some (.succeeded, .acknowledged)
  | .failed => some (.failed, .acknowledged)
  | .notDispatched => some (.failed, .notDispatched)
  | .unknown => none

/-- Applying the evidence takes the attempt from `UNKNOWN` to what the outcome stands for. -/
def Pool.Decides (services : Nat → RecoveryService) (pool : Pool) (worker : Nat) (stamp : Time)
    (candidate : Candidate) (evidence : OwnerEvidence) : Prop :=
  ∃ after old new, pool.step services (.apply worker stamp) = some after ∧
    pool.store.db.attempts.get candidate.attemptId = some old ∧ old.state = .unknown ∧
    after.store.db.attempts.get candidate.attemptId = some new ∧
    evidence.outcome.denotes = some (new.state, new.dispatchState)

/-- The worker's last step in a record was the call that decided the candidate. -/
def Justified (services : Nat → RecoveryService) (record : List (Pool × PoolEvent)) (worker : Nat)
    (candidate : Candidate) (evidence : OwnerEvidence) : Prop :=
  ∃ between before stamp first, record = between ++ (before, .apply worker stamp) :: first ∧
    (∀ entry ∈ between, entry.2.worker ≠ some worker) ∧
    before.Decides services worker stamp candidate evidence

def reconciledIn (services : Nat → RecoveryService) (entry : Pool × PoolEvent) :
    Option (Nat × Candidate × OwnerEvidence) :=
  match entry.2 with
  | .audit worker =>
    match entry.1.phase worker with
    | .applied _ candidate evidence _ _ =>
      if evidence.outcome ≠ .unknown ∧
          ((services worker).audit entry.1.store.db candidate evidence).isOk = true then
        some (worker, candidate, evidence)
      else none
    | _ => none
  | _ => none

/-- A decided answer finds its attempt `UNKNOWN`. -/
def Pool.awaited (pool : Pool) : PoolEvent → Bool
  | .apply worker _ =>
    match pool.phase worker with
    | .answered _ candidate evidence _ _ =>
      decide (evidence.outcome = .unknown) ||
        (pool.store.db.attempts.get candidate.attemptId).all fun attempt =>
          decide (attempt.state = .unknown)
    | _ => true
  | _ => true

/-! ## Steps -/

section Steps

variable {services : Nat → RecoveryService} {pool next : Pool} {worker : Nat}

theorem Pool.commit_phase {result : RecoveryResult} {outcome : Except StoreError Database}
    {phase : WorkerPhase} :
    (pool.commit worker result outcome phase).phase = Function.update pool.phase worker phase ∧
        outcome = .ok (pool.commit worker result outcome phase).store.db ∨
      ∃ error, (pool.commit worker result outcome phase).phase =
        Function.update pool.phase worker (.returned result error) := by
  unfold Pool.commit
  split
  next => exact .inl ⟨rfl, rfl⟩
  next => exact .inr ⟨_, rfl⟩

theorem WorkerPhase.next_ne_applied {now later : Time} {result counted : RecoveryResult}
    {candidates rest : List Candidate} {candidate : Candidate} :
    WorkerPhase.next now result candidates ≠ .applied later candidate evidence rest counted := by
  intro impossible
  cases candidates <;> cases impossible

/-- A worker takes a phase in which it has applied evidence only by doing so. -/
structure Pool.Turns (services : Nat → RecoveryService) (pool : Pool) (event : PoolEvent)
    (next : Pool) (worker : Nat) (phase : WorkerPhase) : Prop where
  phases : next.phase = Function.update pool.phase worker phase
  applied : ∀ {now candidate evidence rest result},
    phase = .applied now candidate evidence rest result → ∃ stamp, event = .apply worker stamp ∧
      pool.phase worker = .answered now candidate evidence rest result ∧
      Store.applyOwnerEvidence pool.store.db stamp candidate.attemptId (services worker).workerId
        evidence = .ok next.store.db

theorem Pool.step_turns (stepped : pool.step services event = some next)
    (own : event.worker = some worker) : ∃ phase, pool.Turns services event next worker phase := by
  cases event with
  | operation operation => cases own
  | start actor now stamp admissions dispatches locked =>
    obtain rfl := Option.some.inj own
    simp only [Pool.step] at stepped
    split at stepped
    all_goals first
      | cases stepped
      | split at stepped
        · split at stepped
          · cases stepped
            exact ⟨_, rfl, nofun⟩
          · cases stepped
            exact ⟨_, rfl, fun same => absurd same WorkerPhase.next_ne_applied⟩
        · cases stepped
          exact ⟨_, rfl, nofun⟩
  | answer actor report =>
    obtain rfl := Option.some.inj own
    simp only [Pool.step] at stepped
    split at stepped
    · split at stepped <;> cases stepped <;> exact ⟨_, rfl, nofun⟩
    · cases stepped
  | apply actor stamp =>
    obtain rfl := Option.some.inj own
    simp only [Pool.step] at stepped
    split at stepped
    next answered =>
      obtain rfl := Option.some.inj stepped
      rcases Pool.commit_phase with ⟨phases, done⟩ | ⟨_, phases⟩
      · refine ⟨_, phases, ?_⟩
        rintro _ _ _ _ _ ⟨⟩
        exact ⟨stamp, rfl, answered, done⟩
      · exact ⟨_, phases, nofun⟩
    next => cases stepped
  | audit actor =>
    obtain rfl := Option.some.inj own
    simp only [Pool.step] at stepped
    split at stepped <;> cases stepped
    rcases Pool.commit_phase with ⟨phases, -⟩ | ⟨_, phases⟩
    · exact ⟨_, phases, fun same => absurd same WorkerPhase.next_ne_applied⟩
    · exact ⟨_, phases, nofun⟩
  | expire actor seen =>
    obtain rfl := Option.some.inj own
    simp only [Pool.step] at stepped
    split at stepped <;> cases stepped
    rcases Pool.commit_phase with ⟨phases, -⟩ | ⟨_, phases⟩ <;> exact ⟨_, phases, nofun⟩
  | abandon actor =>
    obtain rfl := Option.some.inj own
    simp only [Pool.step] at stepped
    split at stepped <;> cases stepped
    all_goals exact ⟨_, rfl, nofun⟩

theorem Pool.step_phase_of_ne (stepped : pool.step services event = some next)
    (differ : event.worker ≠ some other) : next.phase other = pool.phase other := by
  cases own : event.worker with
  | none =>
    cases event with
    | operation operation =>
      cases stepped
      rfl
    | start | answer | apply | audit | expire | abandon => cases own
  | some worker =>
    obtain ⟨phase, turns⟩ := step_turns stepped own
    have apart : other ≠ worker := by
      rintro rfl
      exact differ own
    rw [turns.phases, Function.update_of_ne apart]

end Steps

/-! ## Runs -/

theorem applyOwnerEvidence_decides {db after : Database} {stamp : Time} {id : UUID}
    {worker : String} (decided : evidence.outcome ≠ .unknown)
    (awaited : (db.attempts.get id).all (fun attempt => decide (attempt.state = .unknown)) = true)
    (done : Store.applyOwnerEvidence db stamp id worker evidence = .ok after) :
    ∃ old new, db.attempts.get id = some old ∧ old.state = .unknown ∧
      after.attempts.get id = some new ∧
      evidence.outcome.denotes = some (new.state, new.dispatchState) := by
  unfold Store.applyOwnerEvidence at done
  simp only [bind_eq_ok, demand_eq_ok] at done
  obtain ⟨context, -, attempt, found, backendRequestId, -, done⟩ := done
  have unknown : attempt.state = .unknown := by simpa [found] using awaited
  rw [if_neg (not_not.mpr unknown)] at done
  simp only [bind_eq_ok, ensure_eq_ok, exists_const, if_neg decided, demand_eq_ok,
    Store.applyOwnerOutcome, pure_eq_ok] at done
  obtain ⟨-, reservation, -, -, -, -, windows, -, guards, -, middle, recovered,
    reservations, -, claims, -, rfl⟩ := done
  obtain ⟨-, attempts, put, rfl⟩ := updateAttemptOne_of_get recovered found
  refine ⟨attempt, _, found, unknown, put.get_self, ?_⟩
  cases outcome : evidence.outcome <;>
    simp_all [OwnerOutcome.denotes, ToolAttempt.recover]

/-- What is kept along a run: every worker that has applied a decided outcome did so by
the call that decided the attempt, and so did every worker that went on to count it. -/
structure Faithful (services : Nat → RecoveryService) (run : System.Recorded Pool PoolEvent) :
    Prop where
  applied : ∀ worker now candidate evidence rest result,
    run.state.phase worker = .applied now candidate evidence rest result →
    evidence.outcome ≠ .unknown → Justified services run.record worker candidate evidence
  counted : ∀ later entry earlier worker candidate evidence,
    run.record = later ++ entry :: earlier →
    reconciledIn services entry = some (worker, candidate, evidence) →
    Justified services earlier worker candidate evidence

theorem Justified.later {record : List (Pool × PoolEvent)} {worker : Nat} {candidate : Candidate}
    {entry : Pool × PoolEvent} (justified : Justified services record worker candidate evidence)
    (other : entry.2.worker ≠ some worker) :
    Justified services (entry :: record) worker candidate evidence := by
  obtain ⟨between, before, stamp, first, rfl, apart, decides⟩ := justified
  refine ⟨entry :: between, before, stamp, first, rfl, ?_, decides⟩
  intro step member
  rcases List.mem_cons.mp member with rfl | inner
  · exact other
  · exact apart step inner

theorem reconciledIn_eq_some {entry : Pool × PoolEvent} {worker : Nat} {candidate : Candidate}
    (counted : reconciledIn services entry = some (worker, candidate, evidence)) :
    evidence.outcome ≠ .unknown ∧
      ∃ now rest result, entry.1.phase worker = .applied now candidate evidence rest result := by
  unfold reconciledIn at counted
  split at counted
  next actor _ =>
    split at counted
    next now asked reported rest result phase =>
      split at counted
      next holds =>
        cases counted
        exact ⟨holds.1, now, rest, result, phase⟩
      next => cases counted
    next => cases counted
  next => cases counted

theorem Faithful.step {run later : System.Recorded Pool PoolEvent}
    (faithful : Faithful services run) (awaited : run.state.awaited event = true)
    (stepped : (recoveryPool services).recorded.step run event = some later) :
    Faithful services later := by
  obtain ⟨taken, record⟩ := System.recorded_step stepped
  constructor
  · intro worker now candidate evidence rest result applied decided
    rw [record]
    by_cases own : event.worker = some worker
    · obtain ⟨phase, turns⟩ := Pool.step_turns taken own
      rw [turns.phases, Function.update_self] at applied
      obtain ⟨stamp, rfl, answered, done⟩ := turns.applied applied
      simp only [Pool.awaited, answered, decided, decide_false, Bool.false_or] at awaited
      obtain ⟨old, new, found, unknown, wrote, denotes⟩ :=
        applyOwnerEvidence_decides decided awaited done
      exact ⟨[], run.state, stamp, run.record, rfl, by simp,
        later.state, old, new, taken, found, unknown, wrote, denotes⟩
    · rw [Pool.step_phase_of_ne taken own] at applied
      exact (faithful.applied worker now candidate evidence rest result applied decided).later own
  · intro since entry earlier worker candidate evidence split counted
    rw [record] at split
    cases since with
    | nil =>
      obtain ⟨rfl, rfl⟩ := List.cons.inj split
      obtain ⟨decided, now, rest, result, phase⟩ := reconciledIn_eq_some counted
      exact faithful.applied worker now candidate evidence rest result phase decided
    | cons head tail =>
      exact faithful.counted tail entry earlier worker candidate evidence
        (List.cons.inj split).2 counted

/-- In every run whose decided answers each find their attempt `UNKNOWN`, whatever else
uses the store: where a worker audits and counts a candidate as reconciled, its step
before was the call of `ApplyOwnerEvidence` that took the attempt from `UNKNOWN` to the
terminal state the outcome stands for. -/
theorem recoveryAudit_faithful {services : Nat → RecoveryService}
    {run : System.Recorded Pool PoolEvent}
    (reached : (recoveryPool services).recorded.Reachable
      (System.onState fun pool event => pool.awaited event = true) run) :
    ∀ later entry earlier worker candidate evidence, run.record = later ++ entry :: earlier →
      reconciledIn services entry = some (worker, candidate, evidence) →
      Justified services earlier worker candidate evidence := by
  have kept : Faithful services run := by
    refine reached.induction ?_ ?_
    · rintro ⟨state, record⟩ ⟨⟨-, idle⟩, rfl⟩
      constructor
      · intro worker now candidate evidence rest result applied
        cases (idle worker).symm.trans applied
      · intro later entry earlier worker candidate evidence split
        cases later <;> cases split
    · intro before event after _ faithful awaited stepped
      exact faithful.step awaited stepped
  exact kept.counted

/-! ## A late settlement -/

def sampleWorkers (worker : Nat) : RecoveryService where
  workerId := if worker = 0 then "first" else "second"
  lease := second
  admissionGrace := 20 * second
  maxUnknownHold := minute
  batch := 5
  audited := true
  quotable _ := true

def succeededReport : OwnerReport where
  backendRequestId := "request"
  outcome := "SUCCEEDED"
  outcomeCode := "OK"
  resultRef := "result"
  actualToolCalls := 1
  actualResultBytes := 10

/-- A search that reserves no objects is dispatched, its lease runs out, and a worker
claims it. -/
def claimedSearch : List PoolEvent :=
  [.operation (.reserve 0 ⟨10, 11, 0⟩ ((searchCall "first" "one" 0).admission 1)),
    .operation (.dispatch 0 1 "request" second 0),
    .start 0 (10 * second) 0 99 99 []]

def emptyPool : Pool := ⟨.initial [sampleChecksum], fun _ => .idle⟩

theorem emptyPool_initial : (recoveryPool sampleWorkers).initial emptyPool :=
  ⟨sampleStore_initial, fun _ => rfl⟩

def countsSearch (run : System.Recorded Pool PoolEvent) : Bool :=
  match run.record with
  | entry :: _ => (reconciledIn sampleWorkers entry).any fun counted =>
    decide (counted.1 = 0 ∧ counted.2.1.attemptId = 1 ∧ counted.2.2.outcome = .succeeded)
  | [] => false

theorem recoveryAudit_faithful_claimedSearch :
    ∃ run entry earlier evidence, (recoveryPool sampleWorkers).recorded.Reachable
        (System.onState fun pool event => pool.awaited event = true) run ∧
      run.record = entry :: earlier ∧ evidence.outcome = .succeeded ∧
      ∃ candidate, candidate.attemptId = 1 ∧
        reconciledIn sampleWorkers entry = some (0, candidate, evidence) ∧
        Justified sampleWorkers earlier 0 candidate evidence := by
  have sound : ∀ event ∈ claimedSearch ++ [.answer 0 succeededReport, .apply 0 0, .audit 0],
      ∀ run : System.Recorded Pool PoolEvent, run.state.awaited event = true →
        System.onState (fun pool event => pool.awaited event = true) run event :=
    fun _ _ _ passed => passed
  obtain ⟨run, -, reached, checked⟩ := System.exists_reachable sound
    (show (recoveryPool sampleWorkers).recorded.initial ⟨emptyPool, []⟩ from
      ⟨emptyPool_initial, rfl⟩)
    (show ((recoveryPool sampleWorkers).recorded.replay _ _ _).any countsSearch = true by
      decide +kernel)
  unfold countsSearch at checked
  split at checked
  next entry earlier shape =>
    obtain ⟨⟨worker, candidate, evidence⟩, counted, matched⟩ := (Option.any_eq_true _ _).mp checked
    obtain ⟨rfl, attempt, outcome⟩ := of_decide_eq_true matched
    exact ⟨run, entry, earlier, evidence, reached, shape, outcome, candidate, attempt, counted,
      recoveryAudit_faithful reached [] entry earlier 0 candidate evidence shape counted⟩
  next => cases checked

def lateFailure : PoolEvent :=
  .operation (.reconcile 0 1 ⟨1, 0, 0⟩ ⟨"UPSTREAM_ERROR", false, ""⟩)

theorem Justified.decides {services : Nat → RecoveryService} {record : List (Pool × PoolEvent)}
    {before : Pool} {event : PoolEvent} {worker : Nat} {candidate : Candidate}
    {evidence : OwnerEvidence} (own : event.worker = some worker)
    (justified : Justified services ((before, event) :: record) worker candidate evidence) :
    ∃ stamp, before.Decides services worker stamp candidate evidence := by
  obtain ⟨between, pool, stamp, first, split, apart, decides⟩ := justified
  cases between with
  | nil =>
    obtain ⟨same, -⟩ := List.cons.inj split
    obtain ⟨rfl, -⟩ := Prod.mk.inj same
    exact ⟨stamp, decides⟩
  | cons entry rest =>
    obtain ⟨rfl, -⟩ := List.cons.inj split
    exact absurd own (apart _ List.mem_cons_self)

def Database.hasFailed (db : Database) (id : UUID) : Bool :=
  (db.attempts.get id).any fun attempt => decide (attempt.state = .failed)

/-- Whether a run ends with two steps of the first worker, the last of which counted the
sample search as a success though it had failed before them. -/
def countsFailed (run : System.Recorded Pool PoolEvent) : Bool :=
  match run.record with
  | entry :: (before, event) :: _ =>
    decide (event.worker = some 0) && before.store.db.hasFailed 1 &&
      run.state.store.db.hasFailed 1 &&
      (reconciledIn sampleWorkers entry).any fun counted =>
        decide (counted.1 = 0 ∧ counted.2.1.attemptId = 1 ∧ counted.2.2.outcome = .succeeded ∧
          counted.2.1.recoveryAudit counted.2.2 ∈ run.state.store.db.audit)
  | _ => false

/-- The call fails the attempt while its owner is asked about it.  The worker finds the
attempt settled, writes nothing, and audits and counts a success. -/
theorem recoveryAudit_unfaithful :
    ∃ run entry earlier candidate evidence,
      (recoveryPool sampleWorkers).recorded.Reachable System.always run ∧
      run.record = entry :: earlier ∧
      reconciledIn sampleWorkers entry = some (0, candidate, evidence) ∧
      candidate.attemptId = 1 ∧ evidence.outcome = .succeeded ∧
      candidate.recoveryAudit evidence ∈ run.state.store.db.audit ∧
      run.state.store.db.hasFailed 1 = true ∧
      ¬ Justified sampleWorkers earlier 0 candidate evidence := by
  obtain ⟨run, -, reached, checked⟩ := System.exists_reachable (fun _ _ _ _ => trivial)
    (show (recoveryPool sampleWorkers).recorded.initial ⟨emptyPool, []⟩ from
      ⟨emptyPool_initial, rfl⟩)
    (show ((recoveryPool sampleWorkers).recorded.replay (fun _ _ => true) _
        (claimedSearch ++ [lateFailure, .answer 0 succeededReport, .apply 0 0, .audit 0])).any
        countsFailed = true by
      decide +kernel)
  unfold countsFailed at checked
  split at checked
  next entry before event rest shape =>
    simp only [Bool.and_eq_true, decide_eq_true_eq] at checked
    obtain ⟨⟨⟨own, failedBefore⟩, failed⟩, counts⟩ := checked
    obtain ⟨⟨worker, candidate, evidence⟩, counted, matched⟩ := (Option.any_eq_true _ _).mp counts
    obtain ⟨rfl, attempt, outcome, audited⟩ := of_decide_eq_true matched
    simp only at attempt
    refine ⟨run, entry, _, candidate, evidence, reached, shape, counted, attempt, outcome, audited,
      failed, ?_⟩
    intro justified
    obtain ⟨stamp, after, old, new, -, found, unknown, -⟩ := justified.decides own
    rw [attempt] at found
    rw [Database.hasFailed, found, Option.any_some, decide_eq_true_eq, unknown] at failedBefore
    cases failedBefore
  next => cases checked

end OufMcp.Ledger
