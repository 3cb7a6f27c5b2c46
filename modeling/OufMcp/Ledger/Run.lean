import OufMcp.Ledger.Service
import OufMcp.Transition.System

/-!
# Interleaved runs

Any number of governed calls, recovery workers, evidence ingress and late
compensation over one database.  One event is one committed transaction or one
local step of a call; a transaction that fails leaves the database as it was.
A query that takes no lock may have seen any database committed earlier, so a
run keeps them.  `Reserve` retries an aborted transaction twice.  A call may stop
for good after any of its steps.
-/

namespace OufMcp.Ledger

open Relational Transition

/-- How far a call has come. -/
inductive Phase where
  | idle
  | reserving (call : Invocation) (attemptId : UUID) (aborts : Nat)
  | admitted (call : Invocation) (decision : AdmissionDecision)
  | dispatched (call : Invocation) (id : UUID) (backendRequestId : String)
  | replied (id : UUID) (actual : Cost) (outcome : AttemptOutcome)
  | returned
  deriving DecidableEq, Repr

structure State where
  db : Database
  past : List Database
  calls : Nat → Phase
  created : List (ClaimKey × UUID)
  dispatched : List (ClaimKey × UUID)
  executed : List (ClaimKey × UUID)

inductive Event where
  | begin (caller : Nat) (call : Invocation) (attemptId : UUID)
  | reserve (caller : Nat) (now : Time) (fresh : Generated)
  | abort (caller : Nat)
  | dispatch (caller : Nat) (stamp : Time) (backendRequestId : String)
  | execute (caller : Nat) (reply : GatewayReply)
  | reconcile (caller : Nat) (stamp : Time)
  | abandon (caller : Nat)
  | audit (event : AuditEvent)
  | maintain (now : Time)
  | markStaleAndClaim (admissions dispatches : Nat) (stamp now admittedBefore : Time)
      (worker : String) (lease : Time) (limit : Nat) (locked : List UUID)
  | applyOwnerEvidence (stamp : Time) (id : UUID) (worker : String) (evidence : OwnerEvidence)
  | expireUnknown (seen : Nat) (now unknownBefore : Time) (limit : Nat)
  | insertVerifiedEvidence (input : Verified)
  | lateCompensate (seen : Nat) (stamp : Time) (id ref : UUID) (expectedRevision : Int)
  deriving DecidableEq, Repr

namespace State

def initial (manifestSnapshot : List String) : State where
  db := .migrated manifestSnapshot
  past := []
  calls _ := .idle
  created := []
  dispatched := []
  executed := []

/-- The database a query without locks saw: an earlier one, or the current one. -/
def snapshot (state : State) (index : Nat) : Database := (state.past[index]?).getD state.db

def setCall (state : State) (caller : Nat) (phase : Phase) : State :=
  { state with calls := Function.update state.calls caller phase }

def advance (state : State) (db : Database) : State :=
  { state with db, past := state.past ++ [state.db] }

def attempt (state : State) (result : Except StoreError Database) : State :=
  match result with
  | .ok db => state.advance db
  | .error _ => state

def reserve (state : State) (caller : Nat) (call : Invocation)
    (result : Except StoreError (AdmissionDecision × Database)) : State :=
  match result with
  | .error _ => state.setCall caller .returned
  | .ok (decision, db) =>
    if decision.replay then (state.advance db).setCall caller .returned
    else { (state.advance db).setCall caller (.admitted call decision) with
      created := ((call.admission 0).claimKey, decision.attemptId) :: state.created }

def dispatch (state : State) (caller : Nat) (call : Invocation) (id : UUID)
    (backendRequestId : String) (result : Except StoreError Database) : State :=
  match result with
  | .error _ => state.setCall caller .returned
  | .ok db => { (state.advance db).setCall caller (.dispatched call id backendRequestId) with
      dispatched := ((call.admission 0).claimKey, id) :: state.dispatched }

def step (state : State) : Event → Option State
  | .begin caller call attemptId =>
    if state.calls caller = .idle ∧ call.accepted = true then
      some (state.setCall caller (.reserving call attemptId 0))
    else none
  | .reserve caller now fresh =>
    match state.calls caller with
    | .reserving call attemptId _ =>
      some (state.reserve caller call
        (Store.reserveOnce state.db now fresh (call.admission attemptId)))
    | _ => none
  | .abort caller =>
    match state.calls caller with
    | .reserving call attemptId aborts =>
      some (state.setCall caller
        (if aborts + 1 < 3 then .reserving call attemptId (aborts + 1) else .returned))
    | _ => none
  | .dispatch caller stamp backendRequestId =>
    match state.calls caller with
    | .admitted call decision =>
      some (state.dispatch caller call decision.attemptId backendRequestId
        (Store.markRunning state.db stamp decision.attemptId backendRequestId
          (call.timeout + second) decision.lockVersion))
    | _ => none
  | .execute caller reply =>
    match state.calls caller with
    | .dispatched call id backendRequestId =>
      if (reply.response.bodyLength : Int) ≤
          max 0 (gatewayReadLimit call.maximum.resultBytes) then
        some { state.setCall caller
            (.replied id reply.actual (reply.outcome call backendRequestId)) with
          executed := ((call.admission 0).claimKey, id) :: state.executed }
      else none
    | _ => none
  | .reconcile caller stamp =>
    match state.calls caller with
    | .replied id actual outcome =>
      some ((state.attempt (Store.reconcile state.db stamp id actual outcome)).setCall
        caller .returned)
    | _ => none
  | .abandon caller => some (state.setCall caller .returned)
  | .audit event => some (state.attempt (Store.appendAudit state.db event))
  | .maintain now => some (state.attempt (Store.maintain state.db now))
  | .markStaleAndClaim admissions dispatches stamp now admittedBefore worker lease limit locked =>
    some (state.attempt ((Store.markStaleAndClaim (state.snapshot admissions)
      (state.snapshot dispatches) state.db stamp now admittedBefore worker lease limit
      locked).map (·.2)))
  | .applyOwnerEvidence stamp id worker evidence =>
    some (state.attempt (Store.applyOwnerEvidence state.db stamp id worker evidence))
  | .expireUnknown seen now unknownBefore limit =>
    some (state.attempt
      (Store.expireUnknown (state.snapshot seen) state.db now unknownBefore limit))
  | .insertVerifiedEvidence input =>
    some (state.attempt ((Store.insertVerifiedEvidence state.db input).map (·.2)))
  | .lateCompensate seen stamp id ref expectedRevision =>
    some (state.attempt ((Store.lateCompensate (state.snapshot seen) state.db stamp id ref
      expectedRevision).map (·.2)))

end State

/-- The governed runtime: it starts migrated, with well-formed manifest checksums. -/
def runtime : System State Event where
  initial state := ∃ manifests : List String,
    (∀ checksum ∈ manifests, hexDigest checksum = true) ∧ state = .initial manifests
  step := State.step

/-! ## Traces -/

def sampleChecksum : String := "aaaaaaaaaaaaaaaaaaaaaaaaaaaaaaaaaaaaaaaaaaaaaaaaaaaaaaaaaaaaaaaa"

def searchCall (idempotencyKey semanticFingerprint : String) (objects : Int) : Invocation where
  budgetProfile := ""
  identity := ⟨"service", "principal", "tenant"⟩
  capabilityId := "urban.object.search"
  owner := "udp"
  operationClass := "READ"
  gatewayBindingRef := "gateway"
  manifestChecksum := sampleChecksum
  idempotencyKey := idempotencyKey
  requestHash := sampleChecksum
  semanticFingerprint := semanticFingerprint
  correlationId := "correlation"
  window := minute
  timeout := 3 * second
  retryThreshold := 3
  maximum := { toolCalls := 1, distinctObjects := objects, resultBytes := 4096 }

def shortReply : GatewayReply where
  response := { status := 200, bodyLength := 10, backendRequestId := "", problem := none }
  failed := false
  projected := none

/-- Replay a trace over a freshly migrated database, under a test of each step. -/
def replayTrace (test : State → Event → Bool) (trace : List Event) : Option State :=
  runtime.replay test (.initial [sampleChecksum]) trace

theorem sample_initial : runtime.initial (.initial [sampleChecksum]) := by
  refine ⟨[sampleChecksum], ?_, rfl⟩
  have checked : hexDigest sampleChecksum = true := by decide +kernel
  simpa using checked

theorem replayTrace_reachable (test : State → Event → Bool) (trace : List Event)
    (check : State → Bool) (accepted : (replayTrace test trace).any check = true) :
    ∃ state, replayTrace test trace = some state ∧
      runtime.Reachable (fun state event => test state event = true) state ∧ check state = true :=
  System.exists_reachable (fun _ _ _ passed => passed) sample_initial accepted

end OufMcp.Ledger
