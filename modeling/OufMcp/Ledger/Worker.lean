import OufMcp.Ledger.Operations

/-!
# The recovery worker

`recovery.Service.RunOnce`: claim a batch of uncertain attempts, ask the owner of
each what became of it, apply and audit the answer, and at the end expire what has
been uncertain for too long.  The first error ends the round.  It is given twice:
as a function, for a round nothing interferes with, and as a machine whose steps
interleave with those of other workers and with every other use of the store.
-/

namespace OufMcp.Ledger

open Relational Transition

/-! ## One round -/

/-- `recovery.OwnerEvidence` as the owner port returns it. -/
structure OwnerReport where
  backendRequestId : String
  outcome : String
  outcomeCode : String
  resultRef : String
  actualToolCalls : Int
  actualResultBytes : Int
  deriving DecidableEq, Repr

def OwnerOutcome.ofString? : String → Option OwnerOutcome
  | "SUCCEEDED" => some .succeeded
  | "FAILED" => some .failed
  | "NOT_DISPATCHED" => some .notDispatched
  | "UNKNOWN" => some .unknown
  | _ => none

def OwnerOutcome.text : OwnerOutcome → String
  | .succeeded => "SUCCEEDED"
  | .failed => "FAILED"
  | .notDispatched => "NOT_DISPATCHED"
  | .unknown => "UNKNOWN"

/-- `recovery.Service`.  `quotable` says whether the `%q` form of an outcome code, which
the audit row is built from, is valid JSON. -/
structure RecoveryService where
  workerId : String
  lease : Time
  admissionGrace : Time
  maxUnknownHold : Time
  batch : Int
  audited : Bool
  quotable : String → Bool

def RecoveryService.configured (service : RecoveryService) : Prop :=
  ¬ (service.workerId = "" ∨ service.lease ≤ 0 ∨ service.admissionGrace ≤ 0 ∨
    service.maxUnknownHold ≤ 0 ∨ service.batch < 1)

instance (service : RecoveryService) : Decidable service.configured :=
  inferInstanceAs (Decidable (¬ _))

/-- `recovery.Result` -/
structure RecoveryResult where
  claimed : Nat
  reconciled : Nat
  stillUnknown : Nat
  unresolved : Nat
  deriving DecidableEq, Repr

inductive RecoveryError where
  | invalidConfiguration
  | invalidOwnerEvidence
  | store (error : StoreError)
  deriving DecidableEq, Repr

/-- The evidence of an answer; no answer counts as `UNKNOWN`. -/
def Candidate.consider (candidate : Candidate) (answer : Option OwnerReport) :
    Except RecoveryError OwnerEvidence := do
  let report := answer.getD
    { backendRequestId := candidate.backendRequestId, outcome := "UNKNOWN"
      outcomeCode := "OWNER_QUERY_UNAVAILABLE", resultRef := ""
      actualToolCalls := 0, actualResultBytes := 0 }
  ensure (report.backendRequestId = candidate.backendRequestId) .invalidOwnerEvidence
  let outcome ← demand .invalidOwnerEvidence (OwnerOutcome.ofString? report.outcome)
  pure { backendRequestId := report.backendRequestId, outcome
         outcomeCode := report.outcomeCode, resultRef := report.resultRef
         actualToolCalls := report.actualToolCalls, actualResultBytes := report.actualResultBytes }

/-- The row of `Store.AppendRecoveryAudit`. -/
def Candidate.recoveryAudit (candidate : Candidate) (evidence : OwnerEvidence) : AuditEvent where
  eventType := "ATTEMPT_RECOVERY_" ++ evidence.outcome.text
  actorType := "MAINTENANCE_WORKER"
  servicePrincipalId := none
  attemptId := some candidate.attemptId
  manifestChecksum := none
  safeDetail := .outcome evidence.outcomeCode

/-- `Store.AppendRecoveryAudit`, when there is an audit port. -/
def RecoveryService.audit (service : RecoveryService) (db : Database) (candidate : Candidate)
    (evidence : OwnerEvidence) : Except StoreError Database :=
  if service.audited then do
    ensure (service.quotable evidence.outcomeCode = true) .constraintViolation
    Store.appendAudit db (candidate.recoveryAudit evidence)
  else pure db

def RecoveryResult.count (result : RecoveryResult) (evidence : OwnerEvidence) : RecoveryResult :=
  if evidence.outcome = .unknown then { result with stillUnknown := result.stillUnknown + 1 }
  else { result with reconciled := result.reconciled + 1 }

def expiredCount (seen db : Database) (now unknownBefore : Time) (limit : Nat) : Nat :=
  (Store.selectExpiredUnknown seen now unknownBefore limit).countP fun row =>
    (db.attempts.get row.attempt).any fun attempt => decide (attempt.state = .unknown)

def RecoveryService.apply (service : RecoveryService) (stamp : Time)
    (answer : Candidate → Option OwnerReport) (candidate : Candidate) (db : Database) :
    Except RecoveryError (OwnerEvidence × Database) := do
  let evidence ← candidate.consider (answer candidate)
  let applied ← (Store.applyOwnerEvidence db stamp candidate.attemptId service.workerId
    evidence).mapError .store
  pure (evidence, applied)

/-- One pass of the loop over the claimed candidates.  An error comes with the database it
leaves: what was applied before the audit failed is committed. -/
def RecoveryService.handle (service : RecoveryService) (stamp : Time)
    (answer : Candidate → Option OwnerReport) (candidate : Candidate) (db : Database) :
    Except (RecoveryError × Database) (OwnerEvidence × Database) :=
  match service.apply stamp answer candidate db with
  | .error error => .error (error, db)
  | .ok (evidence, applied) =>
    match service.audit applied candidate evidence with
    | .error error => .error (.store error, applied)
    | .ok audited => .ok (evidence, audited)

/-- What a round returns, and the database it leaves. -/
structure Round where
  result : RecoveryResult
  error : Option RecoveryError
  db : Database

def RecoveryService.expire (service : RecoveryService) (now : Time) (result : RecoveryResult)
    (db : Database) : Round :=
  let unknownBefore := now - service.maxUnknownHold
  let limit := service.batch.toNat
  match Store.expireUnknown db db now unknownBefore limit with
  | .error error => { result, error := some (.store error), db }
  | .ok after =>
    { result := { result with unresolved := expiredCount db db now unknownBefore limit }
      error := none, db := after }

def RecoveryService.recover (service : RecoveryService) (now stamp : Time)
    (answer : Candidate → Option OwnerReport) :
    List Candidate → RecoveryResult → Database → Round
  | [], result, db => service.expire now result db
  | candidate :: rest, result, db =>
    match service.handle stamp answer candidate db with
    | .error (error, left) => { result, error := some error, db := left }
    | .ok (evidence, next) => service.recover now stamp answer rest (result.count evidence) next

def RecoveryService.claim (service : RecoveryService) (now stamp : Time) (locked : List UUID)
    (db : Database) : Except StoreError (List Candidate × Database) :=
  Store.markStaleAndClaim db db db stamp now (now - service.admissionGrace) service.workerId
    service.lease service.batch.toNat locked

/-- `Service.RunOnce`, with nothing else writing meanwhile.  The claim passes over the rows
in `locked`. -/
def RecoveryService.runOnce (service : RecoveryService) (now stamp : Time) (locked : List UUID)
    (answer : Candidate → Option OwnerReport) (db : Database) : Round :=
  if service.configured then
    match service.claim now stamp locked db with
    | .error error => { result := ⟨0, 0, 0, 0⟩, error := some (.store error), db }
    | .ok (candidates, claimed) =>
      service.recover now stamp answer candidates ⟨candidates.length, 0, 0, 0⟩ claimed
  else { result := ⟨0, 0, 0, 0⟩, error := some .invalidConfiguration, db }

/-! ## Interleaved rounds -/

/-- Where a worker is in its round. -/
inductive WorkerPhase where
  | idle
  /-- The owner of the candidate is about to answer. -/
  | asking (now : Time) (candidate : Candidate) (rest : List Candidate) (result : RecoveryResult)
  /-- `ApplyOwnerEvidence` is about to run. -/
  | answered (now : Time) (candidate : Candidate) (evidence : OwnerEvidence)
      (rest : List Candidate) (result : RecoveryResult)
  /-- `AppendRecoveryAudit` is about to run. -/
  | applied (now : Time) (candidate : Candidate) (evidence : OwnerEvidence)
      (rest : List Candidate) (result : RecoveryResult)
  | expiring (now : Time) (result : RecoveryResult)
  | returned (result : RecoveryResult) (error : Option RecoveryError)
  deriving DecidableEq, Repr

def WorkerPhase.next (now : Time) (result : RecoveryResult) : List Candidate → WorkerPhase
  | [] => .expiring now result
  | candidate :: rest => .asking now candidate rest result

structure Pool where
  store : StoreState
  phase : Nat → WorkerPhase

inductive PoolEvent where
  /-- Any other use of the store. -/
  | operation (operation : Operation)
  | start (worker : Nat) (now stamp : Time) (admissions dispatches : Nat) (locked : List UUID)
  | answer (worker : Nat) (report : Option OwnerReport)
  | apply (worker : Nat) (stamp : Time)
  | audit (worker : Nat)
  | expire (worker : Nat) (seen : Nat)
  /-- The worker stops: a crash, a cancelled context or a lost connection. -/
  | abandon (worker : Nat)
  deriving DecidableEq, Repr

namespace Pool

def setPhase (pool : Pool) (worker : Nat) (phase : WorkerPhase) : Pool :=
  { pool with phase := Function.update pool.phase worker phase }

def commit (pool : Pool) (worker : Nat) (result : RecoveryResult)
    (outcome : Except StoreError Database) (next : WorkerPhase) : Pool :=
  match outcome with
  | .ok db =>
    { store := ⟨db, pool.store.past ++ [pool.store.db]⟩
      phase := Function.update pool.phase worker next }
  | .error error => pool.setPhase worker (.returned result (some (.store error)))

def step (services : Nat → RecoveryService) (pool : Pool) : PoolEvent → Option Pool
  | .operation operation => some { pool with store := pool.store.step operation }
  | .start worker now stamp admissions dispatches locked =>
    let service := services worker
    match pool.phase worker with
    | .idle | .returned _ _ =>
      if service.configured then
        match Store.markStaleAndClaim (pool.store.snapshot admissions)
            (pool.store.snapshot dispatches) pool.store.db stamp now
            (now - service.admissionGrace) service.workerId service.lease
            service.batch.toNat locked with
        | .error error =>
          some (pool.setPhase worker (.returned ⟨0, 0, 0, 0⟩ (some (.store error))))
        | .ok (candidates, db) =>
          some { store := ⟨db, pool.store.past ++ [pool.store.db]⟩
                 phase := Function.update pool.phase worker
                  (.next now ⟨candidates.length, 0, 0, 0⟩ candidates) }
      else some (pool.setPhase worker (.returned ⟨0, 0, 0, 0⟩ (some .invalidConfiguration)))
    | _ => none
  | .answer worker report =>
    match pool.phase worker with
    | .asking now candidate rest result =>
      match candidate.consider report with
      | .ok evidence => some (pool.setPhase worker (.answered now candidate evidence rest result))
      | .error error => some (pool.setPhase worker (.returned result (some error)))
    | _ => none
  | .apply worker stamp =>
    match pool.phase worker with
    | .answered now candidate evidence rest result =>
      some (pool.commit worker result
        (Store.applyOwnerEvidence pool.store.db stamp candidate.attemptId
          (services worker).workerId evidence)
        (.applied now candidate evidence rest result))
    | _ => none
  | .audit worker =>
    match pool.phase worker with
    | .applied now candidate evidence rest result =>
      some (pool.commit worker result
        ((services worker).audit pool.store.db candidate evidence)
        (.next now (result.count evidence) rest))
    | _ => none
  | .expire worker seen =>
    match pool.phase worker with
    | .expiring now result =>
      let unknownBefore := now - (services worker).maxUnknownHold
      let limit := (services worker).batch.toNat
      some (pool.commit worker result
        (Store.expireUnknown (pool.store.snapshot seen) pool.store.db now unknownBefore limit)
        (.returned { result with
          unresolved := expiredCount (pool.store.snapshot seen) pool.store.db now unknownBefore
            limit } none))
    | _ => none
  | .abandon worker =>
    match pool.phase worker with
    | .idle => none
    | _ => some (pool.setPhase worker .idle)

end Pool

def recoveryPool (services : Nat → RecoveryService) : System Pool PoolEvent where
  initial pool := store.initial pool.store ∧ ∀ worker, pool.phase worker = .idle
  step := Pool.step services

end OufMcp.Ledger
