import OufMcp.Ledger.Acceptance
import OufMcp.Ledger.RecoveryAudit

/-!
# What one round of recovery gets done

The loop of `RunOnce` ends at the first candidate that fails, and with it the round:
the candidates after it keep their claims and nothing is expired.  Which candidates
fail is read off the claimed batch and the answers: those whose answer is not
acceptable, and those whose answer cannot be audited.  A candidate with an acceptable
answer is settled exactly when none of those before it fails, and what is overdue is
expired exactly when no candidate of the batch does.
-/

namespace OufMcp.Ledger

open Relational

variable {leaseUntil now : Time} {id : UUID} {locked : List UUID} {evidence : OwnerEvidence}
  {result : RecoveryResult}

/-! ## What a round is for -/

/-- The database after a candidate's turn, whether or not the turn ended in an error. -/
def RecoveryService.turn (service : RecoveryService) (stamp : Time)
    (answer : Candidate → Option OwnerReport) (db : Database) (candidate : Candidate) : Database :=
  match service.handle stamp answer candidate db with
  | .error (_, left) => left
  | .ok (_, next) => next

variable {service : RecoveryService}

/-- The answer for a candidate has been applied: the attempt is in the state the outcome
stands for, or its claim is released. -/
def Database.Settled (db : Database) (candidate : Candidate) (evidence : OwnerEvidence) : Prop :=
  ∃ attempt, db.attempts.get candidate.attemptId = some attempt ∧
    match evidence.outcome.denotes with
    | some (state, dispatchState) => attempt.state = state ∧ attempt.dispatchState = dispatchState
    | none => attempt.recoveryOwner = none

variable {db claimed : Database}

/-- The attempts that the end of a round is to expire, oldest first and at most a batch. -/
def RecoveryService.overdue (service : RecoveryService) (now : Time) (db : Database) :
    List ExpiryCandidate :=
  Store.selectExpiredUnknown db now (now - service.maxUnknownHold) service.batch.toNat

/-- The answer is about the candidate's request and leaves it open, or decides it with a
cost within the reservation of an attempt that reserved no objects.  No answer leaves it
open. -/
def Candidate.acceptable (candidate : Candidate) (db : Database) : Option OwnerReport → Bool
  | none => true
  | some report =>
    decide (report.backendRequestId = candidate.backendRequestId) &&
      (decide (report.outcome = "UNKNOWN") ||
        decide (report.outcome ∈ ["SUCCEEDED", "FAILED", "NOT_DISPATCHED"]) &&
          (db.reservations.get candidate.attemptId).any fun reservation =>
            decide (0 ≤ report.actualToolCalls ∧
              report.actualToolCalls ≤ reservation.reservedToolCalls ∧
              0 ≤ report.actualResultBytes ∧
              report.actualResultBytes ≤ reservation.reservedResultBytes ∧
              reservation.reservedDistinctObjectsMax ≤ 0))

def RecoveryService.recordable (service : RecoveryService) (answer : Option OwnerReport) : Bool :=
  !service.audited ||
    service.quotable ((answer.map (·.outcomeCode)).getD "OWNER_QUERY_UNAVAILABLE")

/-- The candidate does not end the round. -/
def RecoveryService.passes (service : RecoveryService) (claimed : Database)
    (answer : Candidate → Option OwnerReport) (candidate : Candidate) : Bool :=
  candidate.acceptable claimed (answer candidate) && service.recordable (answer candidate)

/-- No candidate keeps a round from its work: each candidate with an acceptable answer has
it applied, and what is overdue after the last turn is `UNRESOLVED`. -/
structure RecoveryService.Unblocked (service : RecoveryService) (now stamp : Time)
    (answer : Candidate → Option OwnerReport) (candidates : List Candidate)
    (claimed final : Database) : Prop where
  applied : ∀ candidate ∈ candidates, candidate.acceptable claimed (answer candidate) = true →
    ∀ evidence, candidate.consider (answer candidate) = .ok evidence →
      final.Settled candidate evidence
  expired : ∀ row ∈ service.overdue now (candidates.foldl (service.turn stamp answer) claimed),
    ∃ attempt, final.attempts.get row.attempt = some attempt ∧ attempt.state = .unresolved

/-! ## The claim -/

def Database.HeldBy (db : Database) (worker : String) (id : UUID) : Prop :=
  ∃ attempt, db.attempts.get id = some attempt ∧ attempt.state = .unknown ∧
    attempt.recoveryOwner = some worker

theorem claimCandidate_holds {db after : Database} {worker : String} {row : Candidate}
    (done : Store.claimCandidate worker leaseUntil db row = .ok after)
    (held : id = row.attemptId ∨ db.HeldBy worker id) : after.HeldBy worker id := by
  unfold Store.claimCandidate at done
  simp only [bind_eq_ok, demand_eq_ok, ensure_eq_ok, exists_const, writeAttempt_eq_ok] at done
  obtain ⟨attempt, found, unknown, attempts, put, rfl⟩ := done
  by_cases same : id = row.attemptId
  · subst same
    exact ⟨_, put.get_self, unknown, rfl⟩
  · obtain ⟨old, was, uncertain, owner⟩ := held.resolve_left same
    exact ⟨old, (put.get_of_ne same).trans was, uncertain, owner⟩

theorem foldlM_claimCandidate_holds {worker : String} {rows : List Candidate} {db after : Database}
    (done : rows.foldlM (Store.claimCandidate worker leaseUntil) db = .ok after)
    (held : id ∈ rows.map (·.attemptId) ∨ db.HeldBy worker id) : after.HeldBy worker id := by
  induction rows generalizing db with
  | nil =>
    rw [List.foldlM_nil, pure_eq_ok] at done
    subst done
    exact held.resolve_left List.not_mem_nil
  | cons row rest ih =>
    rw [List.foldlM_cons, bind_eq_ok] at done
    obtain ⟨next, claimed, done⟩ := done
    refine ih done ?_
    rw [List.map_cons, List.mem_cons, or_assoc] at held
    rcases held with same | inner | before
    · exact .inr (claimCandidate_holds claimed (.inl same))
    · exact .inl inner
    · exact .inr (claimCandidate_holds claimed (.inr before))

theorem foldlM_claimCandidate_requests {worker : String} {rows : List Candidate}
    {db after : Database}
    (done : rows.foldlM (Store.claimCandidate worker leaseUntil) db = .ok after) (id : UUID) :
    (after.attempts.get id).bind (·.backendRequestId) =
      (db.attempts.get id).bind (·.backendRequestId) := by
  refine foldlM_induction (R := fun before after : Database =>
      (after.attempts.get id).bind (·.backendRequestId) =
        (before.attempts.get id).bind (·.backendRequestId))
    (fun _ => rfl) (fun _ _ _ first second => second.trans first) ?_ done
  intro before row next _ _ claims
  unfold Store.claimCandidate at claims
  simp only [bind_eq_ok, demand_eq_ok, ensure_eq_ok, exists_const, writeAttempt_eq_ok] at claims
  obtain ⟨attempt, found, -, attempts, put, rfl⟩ := claims
  by_cases same : id = row.attemptId
  · subst same
    rw [found]
    exact congrArg (Option.bind · (·.backendRequestId)) put.get_self
  · exact congrArg (Option.bind · (·.backendRequestId)) (put.get_of_ne same)

theorem mapM_candidate {rows : List (UUID × ToolAttempt × AdmissionContext)}
    {out : List Candidate} (done : rows.mapM Store.candidate = .ok out) :
    out.map (·.attemptId) = rows.map (·.1) ∧ ∀ candidate ∈ out, ∃ row ∈ rows,
      row.1 = candidate.attemptId ∧
        row.2.1.backendRequestId = some candidate.backendRequestId := by
  induction rows generalizing out with
  | nil =>
    rw [List.mapM_nil, pure_eq_ok] at done
    subst done
    exact ⟨rfl, fun _ member => absurd member List.not_mem_nil⟩
  | cons row rest ih =>
    rw [List.mapM_cons] at done
    simp only [bind_eq_ok, pure_eq_ok, Store.candidate, demand_eq_ok] at done
    obtain ⟨first, ⟨backendRequestId, sent, rfl⟩, others, found, rfl⟩ := done
    obtain ⟨ids, requests⟩ := ih found
    refine ⟨by rw [List.map_cons, List.map_cons, ids], ?_⟩
    intro candidate member
    rcases List.mem_cons.mp member with rfl | inner
    · exact ⟨row, List.mem_cons_self, rfl, sent⟩
    · obtain ⟨own, among, facts⟩ := requests candidate inner
      exact ⟨own, List.mem_cons_of_mem _ among, facts⟩

theorem nodup_filterMap {α β κ : Type} {rows : List α} (key : α → κ) {join : α → Option β}
    {joined : β → κ} (distinct : (rows.map key).Nodup)
    (keeps : ∀ row out, join row = some out → joined out = key row) :
    ((rows.filterMap join).map joined).Nodup := by
  refine List.Sublist.nodup ?_ distinct
  induction rows with
  | nil => exact .slnil
  | cons row rest ih =>
    have tail := ih (List.nodup_cons.mp distinct).2
    cases found : join row with
    | none =>
      rw [List.filterMap_cons_none found]
      exact .cons _ tail
    | some out =>
      rw [List.filterMap_cons_some found, List.map_cons, List.map_cons, keeps row out found]
      exact .cons_cons _ tail

theorem nodup_selectUnknown (db : Database) (now : Time) (locked : List UUID) (limit : Nat) :
    ((Store.selectUnknown db now locked limit).map (·.1)).Nodup := by
  refine nodup_firstBy (nodup_filterMap Prod.fst (db.attempts.nodup_select _) ?_)
  intro entry row joined
  obtain ⟨context, -, rfl⟩ := Option.map_eq_some_iff.mp joined
  rfl

theorem of_mem_selectUnknown {limit : Nat} {row : UUID × ToolAttempt × AdmissionContext}
    (member : row ∈ Store.selectUnknown db now locked limit) :
    db.attempts.get row.1 = some row.2.1 := by
  obtain ⟨entry, selected, joined⟩ := List.mem_filterMap.mp (mem_of_mem_firstBy member)
  obtain ⟨context, -, rfl⟩ := Option.map_eq_some_iff.mp joined
  exact (Table.mem_select.mp selected).1

/-- The candidates of a claim are distinct, uncertain and held by its worker, and name the
requests of their attempts. -/
theorem claim_holds {now stamp : Time} {candidates : List Candidate}
    (done : service.claim now stamp locked db = .ok (candidates, claimed)) :
    (candidates.map (·.attemptId)).Nodup ∧
      ∀ candidate ∈ candidates, claimed.HeldBy service.workerId candidate.attemptId ∧
        (claimed.attempts.get candidate.attemptId).bind (·.backendRequestId) =
          some candidate.backendRequestId := by
  unfold RecoveryService.claim Store.markStaleAndClaim at done
  simp only [bind_eq_ok, pure_eq_ok] at done
  obtain ⟨released, -, lost, -, out, selected, after, claims, same⟩ := done
  obtain ⟨rfl, rfl⟩ := Prod.mk.inj same
  obtain ⟨ids, requests⟩ := mapM_candidate selected
  constructor
  · rw [ids]
    exact nodup_selectUnknown lost now locked _
  · intro candidate member
    refine ⟨foldlM_claimCandidate_holds claims (.inl (List.mem_map_of_mem member)), ?_⟩
    obtain ⟨row, among, own, sent⟩ := requests candidate member
    rw [foldlM_claimCandidate_requests claims, ← own, of_mem_selectUnknown among]
    exact sent

/-! ## A turn -/

section Turn

variable {service : RecoveryService} {stamp : Time} {answer : Candidate → Option OwnerReport}
  {candidate : Candidate} {db after : Database} {evidence : OwnerEvidence}

theorem applyOwnerEvidence_settles {worker : String} (held : db.HeldBy worker candidate.attemptId)
    (done : Store.applyOwnerEvidence db stamp candidate.attemptId worker evidence = .ok after) :
    after.Settled candidate evidence := by
  obtain ⟨attempt, found, unknown, -⟩ := held
  by_cases undecided : evidence.outcome = .unknown
  · unfold Store.applyOwnerEvidence at done
    simp only [bind_eq_ok, demand_eq_ok, found, Option.some.injEq, exists_eq_left', unknown, ne_eq,
      not_true_eq_false, if_false, ensure_eq_ok, exists_const, undecided, if_true] at done
    obtain ⟨context, -, backendRequestId, -, -, done⟩ := done
    obtain ⟨-, attempts, put, rfl⟩ := updateAttemptOne_of_get done found
    refine ⟨_, put.get_self, ?_⟩
    rw [undecided]
    rfl
  · have awaited : (db.attempts.get candidate.attemptId).all
        (fun attempt => decide (attempt.state = .unknown)) = true := by simp [found, unknown]
    obtain ⟨old, new, -, -, wrote, denotes⟩ := applyOwnerEvidence_decides undecided awaited done
    refine ⟨new, wrote, ?_⟩
    rw [denotes]
    exact ⟨rfl, rfl⟩

theorem apply_eq_ok :
    service.apply stamp answer candidate db = .ok (evidence, after) ↔
      candidate.consider (answer candidate) = .ok evidence ∧
        Store.applyOwnerEvidence db stamp candidate.attemptId service.workerId evidence =
          .ok after := by
  unfold RecoveryService.apply
  simp only [bind_eq_ok, pure_eq_ok, Prod.mk.injEq]
  constructor
  · rintro ⟨considered, accepted, applied, done, rfl, rfl⟩
    cases outcome : Store.applyOwnerEvidence db stamp candidate.attemptId service.workerId
        considered with
    | error error =>
      rw [outcome] at done
      cases done
    | ok result =>
      rw [outcome] at done
      cases done
      exact ⟨accepted, rfl⟩
  · rintro ⟨accepted, done⟩
    refine ⟨evidence, accepted, after, ?_, rfl, rfl⟩
    rw [done]
    rfl

theorem audit_eq (done : service.audit db candidate evidence = .ok after) :
    ∃ events, after = { db with audit := db.audit ++ events } := by
  unfold RecoveryService.audit Store.appendAudit at done
  split at done
  next =>
    simp only [bind_eq_ok, ensure_eq_ok, exists_const, pure_eq_ok] at done
    obtain ⟨-, -, -, rfl⟩ := done
    exact ⟨_, rfl⟩
  next =>
    refine ⟨[], ?_⟩
    rw [List.append_nil]
    exact (pure_eq_ok.mp done).symm

variable (service stamp answer candidate db) in
/-- A turn either leaves the database as it was, because the answer cannot be applied, or
leaves what applying the answer leaves, but for the audit. -/
theorem turn_cases :
    service.turn stamp answer db candidate = db ∧
        (∀ result, service.apply stamp answer candidate db ≠ .ok result) ∨
      ∃ evidence applied events, service.apply stamp answer candidate db = .ok (evidence, applied) ∧
        service.turn stamp answer db candidate =
          { applied with audit := applied.audit ++ events } := by
  unfold RecoveryService.turn RecoveryService.handle
  cases outcome : service.apply stamp answer candidate db with
  | error error => exact .inl ⟨rfl, fun result impossible => by cases impossible⟩
  | ok result =>
    cases audited : service.audit result.2 candidate result.1 with
    | error error =>
      exact .inr ⟨result.1, result.2, [], rfl, by simp only [audited, List.append_nil]⟩
    | ok next =>
      obtain ⟨events, rfl⟩ := audit_eq audited
      exact .inr ⟨result.1, result.2, events, rfl, by simp only [audited]⟩

theorem turn_of_handled
    (handled : service.handle stamp answer candidate db = .ok (evidence, after)) :
    service.turn stamp answer db candidate = after := by
  unfold RecoveryService.turn
  rw [handled]

theorem turn_of_failed {error : RecoveryError}
    (failed : service.handle stamp answer candidate db = .error (error, after)) :
    service.turn stamp answer db candidate = after := by
  unfold RecoveryService.turn
  rw [failed]

theorem turn_settles {applied : Database} (held : db.HeldBy service.workerId candidate.attemptId)
    (done : service.apply stamp answer candidate db = .ok (evidence, applied)) :
    (service.turn stamp answer db candidate).Settled candidate evidence := by
  rcases turn_cases service stamp answer candidate db with ⟨-, refused⟩ | ⟨_, _, events, also, same⟩
  · exact absurd done (refused _)
  · obtain ⟨rfl, rfl⟩ := Prod.mk.inj (Except.ok.inj (done.symm.trans also))
    obtain ⟨attempt, found, settled⟩ := applyOwnerEvidence_settles held (apply_eq_ok.mp done).2
    exact ⟨attempt, same ▸ found, settled⟩

theorem turn_frame {other : UUID} (formed : db.WellFormed) (roomy : db.Roomy)
    (differ : other ≠ candidate.attemptId) :
    (service.turn stamp answer db candidate).attempts.get other = db.attempts.get other := by
  rcases turn_cases service stamp answer candidate db with
    ⟨same, -⟩ | ⟨evidence, applied, events, done, same⟩
  · rw [same]
  · rw [same]
    exact ((applyOwnerEvidence_effects formed roomy (apply_eq_ok.mp done).2).2.2 other differ).1

theorem turn_known {attempt : ToolAttempt} (formed : db.WellFormed) (roomy : db.Roomy)
    (found : db.attempts.get id = some attempt) (known : attempt.state ≠ .unknown) :
    (service.turn stamp answer db candidate).attempts.get id = some attempt := by
  by_cases own : id = candidate.attemptId
  · rcases turn_cases service stamp answer candidate db with
      ⟨same, -⟩ | ⟨evidence, applied, events, done, same⟩
    · rw [same]
      exact found
    · have wrote := (apply_eq_ok.mp done).2
      unfold Store.applyOwnerEvidence at wrote
      simp only [bind_eq_ok, demand_eq_ok, ← own, found, Option.some.injEq, exists_eq_left', ne_eq,
        known, not_false_eq_true, if_true, pure_eq_ok] at wrote
      obtain ⟨-, -, -, -, rfl⟩ := wrote
      rw [same]
      exact found
  · exact (turn_frame formed roomy own).trans found

end Turn

theorem Database.HeldBy.not_settled {worker : String} {candidate : Candidate}
    (held : db.HeldBy worker candidate.attemptId) : ¬ db.Settled candidate evidence := by
  rintro ⟨attempt, found, settled⟩
  obtain ⟨row, also, unknown, owner⟩ := held
  obtain rfl := Option.some.inj (found.symm.trans also)
  cases outcome : evidence.outcome <;> simp_all [OwnerOutcome.denotes]

/-! ## Which candidates pass -/

/-- What the turns of the candidates that remain find: the attempts are distinct, uncertain
and the worker's, with the reservations they had when they were claimed, in a database in
which their answers have room. -/
structure RecoveryService.Ready (service : RecoveryService) (claimed : Database)
    (candidates : List Candidate) (db : Database) : Prop where
  formed : db.WellFormed
  recoverable : db.Recoverable
  roomy : db.Roomy
  distinct : (candidates.map (·.attemptId)).Nodup
  held : ∀ candidate ∈ candidates, db.HeldBy service.workerId candidate.attemptId ∧
    (db.attempts.get candidate.attemptId).bind (·.backendRequestId) =
      some candidate.backendRequestId
  reserved : ∀ candidate ∈ candidates,
    db.reservations.get candidate.attemptId = claimed.reservations.get candidate.attemptId

section Ready

variable {service : RecoveryService} {stamp : Time} {answer : Candidate → Option OwnerReport}
  {claimed db : Database} {candidate : Candidate} {rest : List Candidate}

theorem claim_ready {state : StoreState} {candidates : List Candidate}
    (reached : store.Reachable Transition.System.always state)
    (claims : service.claim now stamp locked state.db = .ok (candidates, claimed))
    (roomy : claimed.Roomy) : service.Ready claimed candidates claimed := by
  have formed := (store_valid reached).formed
  have now := (Database.Extends.refl state.db).precedes
  have moves := markStaleAndClaim_moves formed ⟨formed, now⟩ ⟨formed, now⟩ claims
  obtain ⟨distinct, held⟩ := claim_holds claims
  exact ⟨moves.wellFormed formed, moves.recoverable formed (store_recoverable reached), roomy,
    distinct, held, fun _ _ => rfl⟩

theorem RecoveryService.Ready.turn (ready : service.Ready claimed (candidate :: rest) db) :
    service.Ready claimed rest (service.turn stamp answer db candidate) := by
  have distinct := List.nodup_cons.mp ready.distinct
  have others : ∀ other ∈ rest, other.attemptId ≠ candidate.attemptId := by
    intro other member same
    exact distinct.1 (List.mem_map.mpr ⟨other, member, same⟩)
  rcases turn_cases service stamp answer candidate db with
    ⟨same, -⟩ | ⟨evidence, applied, events, done, same⟩
  · rw [same]
    exact ⟨ready.formed, ready.recoverable, ready.roomy, distinct.2,
      fun other member => ready.held other (List.mem_cons_of_mem _ member),
      fun other member => ready.reserved other (List.mem_cons_of_mem _ member)⟩
  · obtain ⟨moves, roomy, frame⟩ :=
      applyOwnerEvidence_effects ready.formed ready.roomy (apply_eq_ok.mp done).2
    have noted : Move .append applied _ := .append events
    have formed := moves.wellFormed ready.formed
    rw [same]
    refine ⟨noted.wellFormed formed, noted.recoverable formed
      (moves.recoverable ready.formed ready.recoverable), roomy, distinct.2, ?_, ?_⟩
    · intro other member
      have kept := (frame other.attemptId (others other member)).1
      have was := ready.held other (List.mem_cons_of_mem _ member)
      rwa [Database.HeldBy, ← kept] at was
    · intro other member
      exact (frame other.attemptId (others other member)).2.trans
        (ready.reserved other (List.mem_cons_of_mem _ member))

theorem consider_none (candidate : Candidate) :
    candidate.consider none = .ok
      { backendRequestId := candidate.backendRequestId, outcome := .unknown
        outcomeCode := "OWNER_QUERY_UNAVAILABLE", resultRef := ""
        actualToolCalls := 0, actualResultBytes := 0 } := by
  unfold Candidate.consider
  simp only [bind_eq_ok, ensure_eq_ok, exists_const, demand_eq_ok, pure_eq_ok]
  exact ⟨rfl, .unknown, rfl, rfl⟩

theorem consider_request {report : Option OwnerReport}
    (considered : candidate.consider report = .ok evidence) :
    evidence.backendRequestId = candidate.backendRequestId := by
  unfold Candidate.consider at considered
  simp only [bind_eq_ok, ensure_eq_ok, exists_const, demand_eq_ok, pure_eq_ok] at considered
  obtain ⟨own, -, -, rfl⟩ := considered
  exact own

theorem acceptable_iff {reservation : BudgetReservation}
    (reserved : db.reservations.get candidate.attemptId = some reservation)
    (report : Option OwnerReport) :
    candidate.acceptable db report = true ↔ ∃ evidence,
      candidate.consider report = .ok evidence ∧ evidence.fits reservation = true := by
  cases report with
  | none => exact iff_of_true rfl ⟨_, consider_none candidate, rfl⟩
  | some report =>
    unfold Candidate.consider Candidate.acceptable OwnerEvidence.fits
    simp only [bind_eq_ok, ensure_eq_ok, exists_const, demand_eq_ok, pure_eq_ok, Option.getD_some,
      reserved, Option.any_some, Bool.and_eq_true, Bool.or_eq_true, decide_eq_true_eq]
    constructor
    · rintro ⟨own, undecided | ⟨decided, cost⟩⟩
      · exact ⟨_, ⟨own, .unknown, by rw [undecided]; rfl, rfl⟩, .inl rfl⟩
      · have named : ∃ outcome, OwnerOutcome.ofString? report.outcome = some outcome := by
          simp only [List.mem_cons, List.not_mem_nil, or_false] at decided
          rcases decided with text | text | text <;> rw [text] <;> exact ⟨_, rfl⟩
        obtain ⟨outcome, named⟩ := named
        exact ⟨_, ⟨own, outcome, named, rfl⟩, .inr cost⟩
    · rintro ⟨evidence, ⟨own, outcome, named, rfl⟩, fits⟩
      refine ⟨own, ?_⟩
      unfold OwnerOutcome.ofString? at named
      split at named <;> cases named <;> simp_all

theorem apply_ok_iff (stamp : Time) (ready : service.Ready claimed (candidate :: rest) db) :
    (∃ result, service.apply stamp answer candidate db = .ok result) ↔
      candidate.acceptable claimed (answer candidate) = true := by
  obtain ⟨⟨attempt, found, unknown, mine⟩, sent⟩ := ready.held candidate List.mem_cons_self
  rw [found] at sent
  obtain ⟨rows, held, rfl⟩ := ready.formed.holds_of_attempt found
  have reserved := (ready.reserved candidate List.mem_cons_self).symm.trans held.reservation
  rw [acceptable_iff reserved]
  constructor
  · rintro ⟨⟨evidence, after⟩, done⟩
    obtain ⟨considered, applied⟩ := apply_eq_ok.mp done
    have named := sent.trans (congrArg some (consider_request considered).symm)
    exact ⟨evidence, considered, (applyOwnerEvidence_ok_iff ready.formed ready.recoverable
      ready.roomy held unknown mine named stamp).mp ⟨after, applied⟩⟩
  · rintro ⟨evidence, considered, fits⟩
    have named := sent.trans (congrArg some (consider_request considered).symm)
    obtain ⟨after, applied⟩ := (applyOwnerEvidence_ok_iff ready.formed ready.recoverable
      ready.roomy held unknown mine named stamp).mpr fits
    exact ⟨(evidence, after), apply_eq_ok.mpr ⟨considered, applied⟩⟩

theorem audit_ok_iff (present : (db.attempts.get candidate.attemptId).isSome)
    (considered : candidate.consider (answer candidate) = .ok evidence) :
    (∃ after, service.audit db candidate evidence = .ok after) ↔
      service.recordable (answer candidate) = true := by
  have code : evidence.outcomeCode =
      ((answer candidate).map (·.outcomeCode)).getD "OWNER_QUERY_UNAVAILABLE" := by
    unfold Candidate.consider at considered
    simp only [bind_eq_ok, ensure_eq_ok, exists_const, demand_eq_ok, pure_eq_ok] at considered
    obtain ⟨-, -, -, rfl⟩ := considered
    cases answer candidate <;> rfl
  unfold RecoveryService.audit RecoveryService.recordable
  rw [← code]
  cases service.audited with
  | false => exact iff_of_true ⟨db, rfl⟩ rfl
  | true =>
    have cited : (candidate.recoveryAudit evidence).attemptId = some candidate.attemptId := rfl
    have unlisted : (candidate.recoveryAudit evidence).manifestChecksum = none := rfl
    simp only [if_true, Store.appendAudit, cited, unlisted, bind_eq_ok, ensure_eq_ok,
      exists_const, pure_eq_ok, Option.all_some, Option.all_none, present, true_and,
      Bool.not_true, Bool.false_or, exists_and_left, exists_eq', and_true]

/-- A candidate ends the round exactly when it does not pass. -/
theorem handle_ok_iff (stamp : Time) (ready : service.Ready claimed (candidate :: rest) db) :
    (∃ result, service.handle stamp answer candidate db = .ok result) ↔
      service.passes claimed answer candidate = true := by
  rw [RecoveryService.passes, Bool.and_eq_true, ← apply_ok_iff stamp ready]
  unfold RecoveryService.handle
  cases outcome : service.apply stamp answer candidate db with
  | error error => simp
  | ok result =>
    obtain ⟨evidence, applied⟩ := result
    obtain ⟨considered, wrote⟩ := apply_eq_ok.mp outcome
    obtain ⟨attempt, found, -⟩ :=
      applyOwnerEvidence_settles (ready.held candidate List.mem_cons_self).1 wrote
    have present : (applied.attempts.get candidate.attemptId).isSome := by rw [found]; rfl
    rw [← audit_ok_iff present considered]
    cases audited : service.audit applied candidate evidence <;> simp [audited]

end Ready

/-! ## The expiry -/

section Expiry

variable {now : Time} {db after : Database}

def Database.Expires (now : Time) (db after : Database) : Prop :=
  ∀ id attempt, db.attempts.get id = some attempt → ∃ new, after.attempts.get id = some new ∧
    (new = attempt ∨ attempt.state = .unknown ∧ new = attempt.expire now)

theorem Database.Expires.refl (db : Database) : db.Expires now db :=
  fun _ attempt found => ⟨attempt, found, .inl rfl⟩

theorem Database.Expires.trans {middle : Database} (first : db.Expires now middle)
    (second : middle.Expires now after) : db.Expires now after := by
  intro id attempt found
  obtain ⟨new, between, change⟩ := first id attempt found
  obtain ⟨last, ends, again⟩ := second id new between
  refine ⟨last, ends, ?_⟩
  rcases change with rfl | ⟨unknown, rfl⟩
  · exact again
  · rcases again with rfl | ⟨impossible, -⟩
    · exact .inr ⟨unknown, rfl⟩
    · cases impossible

theorem expireOne_expires {row : ExpiryCandidate} (done : Store.expireOne now db row = .ok after) :
    db.Expires now after ∧
      ∃ attempt, after.attempts.get row.attempt = some attempt ∧ attempt.state ≠ .unknown := by
  unfold Store.expireOne at done
  simp only [bind_eq_ok, demand_eq_ok] at done
  obtain ⟨attempt, found, done⟩ := done
  split at done
  next settled =>
    obtain rfl := pure_eq_ok.mp done
    exact ⟨.refl db, attempt, found, settled⟩
  next unknown =>
    simp only [ne_eq, Decidable.not_not] at unknown
    simp only [bind_eq_ok, demand_eq_ok, ensure_eq_ok, exists_const] at done
    obtain ⟨reservation, -, -, windows, -, reservations, -, claims, -, expired⟩ := done
    obtain ⟨-, attempts, put, rfl⟩ := updateAttemptOne_of_get expired found
    constructor
    · intro id other was
      by_cases same : id = row.attempt
      · subst same
        obtain rfl := Option.some.inj (found.symm.trans was)
        exact ⟨_, put.get_self, .inr ⟨unknown, rfl⟩⟩
      · exact ⟨other, (put.get_of_ne same).trans was, .inl rfl⟩
    · refine ⟨_, put.get_self, ?_⟩
      intro impossible
      cases impossible

theorem foldlM_expireOne {rows : List ExpiryCandidate}
    (done : rows.foldlM (Store.expireOne now) db = .ok after) :
    db.Expires now after ∧ ∀ row ∈ rows,
      ∃ attempt, after.attempts.get row.attempt = some attempt ∧ attempt.state ≠ .unknown := by
  induction rows generalizing db with
  | nil =>
    rw [List.foldlM_nil, pure_eq_ok] at done
    subst done
    exact ⟨.refl db, fun _ member => absurd member List.not_mem_nil⟩
  | cons row rest ih =>
    rw [List.foldlM_cons, bind_eq_ok] at done
    obtain ⟨next, passed, done⟩ := done
    obtain ⟨first, attempt, found, settled⟩ := expireOne_expires passed
    obtain ⟨others, each⟩ := ih done
    refine ⟨first.trans others, ?_⟩
    intro other member
    rcases List.mem_cons.mp member with rfl | inner
    · obtain ⟨new, ends, rfl | ⟨unknown, -⟩⟩ := others _ attempt found
      · exact ⟨new, ends, settled⟩
      · exact absurd unknown settled
    · exact each other inner

theorem of_mem_overdue {row : ExpiryCandidate} (member : row ∈ service.overdue now db) :
    ∃ attempt, db.attempts.get row.attempt = some attempt ∧ attempt.state = .unknown := by
  obtain ⟨⟨id, attempt⟩, selected, joined⟩ := List.mem_filterMap.mp (mem_of_mem_firstBy member)
  obtain ⟨context, -, rfl⟩ := Option.map_eq_some_iff.mp joined
  obtain ⟨found, wanted⟩ := Table.mem_select.mp selected
  simp only [Bool.and_eq_true, decide_eq_true_eq] at wanted
  exact ⟨attempt, found, wanted.1.1⟩

theorem expireUnknown_expires
    (done : Store.expireUnknown db db now (now - service.maxUnknownHold) service.batch.toNat =
      .ok after) :
    db.Expires now after ∧ ∀ row ∈ service.overdue now db,
      ∃ attempt, after.attempts.get row.attempt = some attempt ∧ attempt.state = .unresolved := by
  obtain ⟨expires, each⟩ := foldlM_expireOne done
  refine ⟨expires, ?_⟩
  intro row member
  obtain ⟨attempt, found, unknown⟩ := of_mem_overdue member
  obtain ⟨new, ends, settled⟩ := each row member
  obtain ⟨also, same, rfl | ⟨-, rfl⟩⟩ := expires row.attempt attempt found
  · obtain rfl := Option.some.inj (ends.symm.trans same)
    exact absurd unknown settled
  · exact ⟨_, same, rfl⟩

theorem Database.Settled.expires {candidate : Candidate} {evidence : OwnerEvidence}
    (settled : db.Settled candidate evidence) (expires : db.Expires now after) :
    after.Settled candidate evidence := by
  obtain ⟨attempt, found, holds⟩ := settled
  obtain ⟨new, ends, rfl | ⟨unknown, rfl⟩⟩ := expires _ attempt found
  · exact ⟨new, ends, holds⟩
  · refine ⟨_, ends, ?_⟩
    cases outcome : evidence.outcome <;> simp_all [OwnerOutcome.denotes, ToolAttempt.expire]

end Expiry

/-! ## The round -/

section Round

variable {service : RecoveryService} {now stamp : Time} {answer : Candidate → Option OwnerReport}

theorem expire_settled {candidate : Candidate} (settled : db.Settled candidate evidence) :
    (service.expire now result db).db.Settled candidate evidence := by
  unfold RecoveryService.expire
  cases done : Store.expireUnknown db db now (now - service.maxUnknownHold) service.batch.toNat with
  | error error => simpa only [done] using settled
  | ok after =>
    simp only [done]
    exact settled.expires (expireUnknown_expires done).1

theorem recover_settled {candidates : List Candidate} (ready : service.Ready claimed candidates db)
    {candidate : Candidate} (settled : db.Settled candidate evidence)
    (apart : candidate.attemptId ∉ candidates.map (·.attemptId)) :
    (service.recover now stamp answer candidates result db).db.Settled candidate evidence := by
  induction candidates generalizing result db with
  | nil => exact expire_settled settled
  | cons other rest ih =>
    rw [List.map_cons, List.mem_cons, not_or] at apart
    have kept : (service.turn stamp answer db other).Settled candidate evidence := by
      obtain ⟨attempt, found, holds⟩ := settled
      exact ⟨attempt, (turn_frame ready.formed ready.roomy apart.1).trans found, holds⟩
    have next : service.Ready claimed rest (service.turn stamp answer db other) := ready.turn
    unfold RecoveryService.recover
    cases handled : service.handle stamp answer other db with
    | error failure =>
      rw [turn_of_failed handled] at kept
      exact kept
    | ok outcome =>
      rw [turn_of_handled handled] at kept next
      exact ih next kept apart.2

theorem foldl_turn_known {candidates : List Candidate} (ready : service.Ready claimed candidates db)
    {attempt : ToolAttempt} (found : db.attempts.get id = some attempt)
    (known : attempt.state ≠ .unknown) :
    (candidates.foldl (service.turn stamp answer) db).attempts.get id = some attempt := by
  induction candidates generalizing db with
  | nil => exact found
  | cons candidate rest ih =>
    exact ih ready.turn (turn_known ready.formed ready.roomy found known)

/-- A candidate with an acceptable answer is settled exactly when no candidate before it ends
the round. -/
theorem recover_settles_iff {candidates : List Candidate}
    (ready : service.Ready claimed candidates db) {earlier later : List Candidate}
    {candidate : Candidate} (split : candidates = earlier ++ candidate :: later)
    (acceptable : candidate.acceptable claimed (answer candidate) = true)
    (considered : candidate.consider (answer candidate) = .ok evidence) :
    (service.recover now stamp answer candidates result db).db.Settled candidate evidence ↔
      ∀ other ∈ earlier, service.passes claimed answer other = true := by
  induction earlier generalizing candidates result db with
  | nil =>
    subst split
    obtain ⟨⟨also, applied⟩, done⟩ := (apply_ok_iff stamp ready).mpr acceptable
    obtain rfl := Except.ok.inj ((apply_eq_ok.mp done).1.symm.trans considered)
    have settled := turn_settles (ready.held candidate List.mem_cons_self).1 done
    have next : service.Ready claimed later (service.turn stamp answer db candidate) := ready.turn
    refine iff_of_true ?_ fun _ member => absurd member List.not_mem_nil
    rw [List.nil_append]
    unfold RecoveryService.recover
    cases handled : service.handle stamp answer candidate db with
    | error failure =>
      rw [turn_of_failed handled] at settled
      exact settled
    | ok outcome =>
      rw [turn_of_handled handled] at settled next
      exact recover_settled next settled (List.nodup_cons.mp ready.distinct).1
  | cons first earlier ih =>
    subst split
    have next : service.Ready claimed (earlier ++ candidate :: later)
      (service.turn stamp answer db first) := ready.turn
    rw [List.forall_mem_cons, ← handle_ok_iff stamp ready, List.cons_append]
    unfold RecoveryService.recover
    cases handled : service.handle stamp answer first db with
    | error failure =>
      rw [turn_of_failed handled] at next
      exact iff_of_false (next.held candidate (by simp)).1.not_settled (by simp)
    | ok outcome =>
      rw [turn_of_handled handled] at next
      simpa using ih next rfl

/-- What is overdue after the turns is expired exactly when no candidate ends the round. -/
theorem recover_expires_iff {candidates : List Candidate}
    (ready : service.Ready claimed candidates db) {row : ExpiryCandidate}
    (overdue : row ∈ service.overdue now (candidates.foldl (service.turn stamp answer) db)) :
    (∃ attempt, (service.recover now stamp answer candidates result db).db.attempts.get
        row.attempt = some attempt ∧ attempt.state = .unresolved) ↔
      ∀ candidate ∈ candidates, service.passes claimed answer candidate = true := by
  induction candidates generalizing result db with
  | nil =>
    refine iff_of_true ?_ fun _ member => absurd member List.not_mem_nil
    obtain ⟨after, done⟩ := expireUnknown_ok ready.formed ready.recoverable ready.roomy now
      (now - service.maxUnknownHold) service.batch.toNat
    unfold RecoveryService.recover RecoveryService.expire
    simp only [done]
    exact (expireUnknown_expires done).2 row overdue
  | cons candidate rest ih =>
    have next : service.Ready claimed rest (service.turn stamp answer db candidate) := ready.turn
    rw [List.foldl_cons] at overdue
    rw [List.forall_mem_cons, ← handle_ok_iff stamp ready]
    unfold RecoveryService.recover
    cases handled : service.handle stamp answer candidate db with
    | error failure =>
      rw [turn_of_failed handled] at next overdue
      refine iff_of_false ?_ (by simp)
      -- The attempt is still uncertain after the turns, so it was not expired before them.
      rintro ⟨attempt, found, unresolved⟩
      obtain ⟨uncertain, also, unknown⟩ := of_mem_overdue overdue
      have known : attempt.state ≠ .unknown := by simp [unresolved]
      obtain rfl := Option.some.inj (also.symm.trans (foldl_turn_known next found known))
      exact known unknown
    | ok outcome =>
      rw [turn_of_handled handled] at next overdue
      simpa using ih next overdue

theorem runOnce_of_claim {candidates : List Candidate} (configured : service.configured)
    (claims : service.claim now stamp locked db = .ok (candidates, claimed)) :
    service.runOnce now stamp locked answer db =
      service.recover now stamp answer candidates ⟨candidates.length, 0, 0, 0⟩ claimed := by
  unfold RecoveryService.runOnce
  rw [if_pos configured, claims]

end Round

/-- For every database of the store, batch and answers for which the counters have room: a
candidate with an acceptable answer is settled exactly when every candidate before it
passes, and what is overdue is expired exactly when every candidate passes.  So a batch in
which all pass gets all its work done. -/
theorem runOnce_unblocked_iff {service : RecoveryService} {now stamp : Time} {locked : List UUID}
    {answer : Candidate → Option OwnerReport} {state : StoreState} {claimed : Database}
    {candidates : List Candidate} (reached : store.Reachable Transition.System.always state)
    (configured : service.configured)
    (claims : service.claim now stamp locked state.db = .ok (candidates, claimed))
    (roomy : claimed.Roomy) :
    (∀ earlier candidate later evidence, candidates = earlier ++ candidate :: later →
      candidate.acceptable claimed (answer candidate) = true →
      candidate.consider (answer candidate) = .ok evidence →
        ((service.runOnce now stamp locked answer state.db).db.Settled candidate evidence ↔
          ∀ other ∈ earlier, service.passes claimed answer other = true)) ∧
    (∀ row ∈ service.overdue now (candidates.foldl (service.turn stamp answer) claimed),
      ((∃ attempt, (service.runOnce now stamp locked answer state.db).db.attempts.get row.attempt =
          some attempt ∧ attempt.state = .unresolved) ↔
        ∀ candidate ∈ candidates, service.passes claimed answer candidate = true)) ∧
    ((∀ candidate ∈ candidates, service.passes claimed answer candidate = true) →
      service.Unblocked now stamp answer candidates claimed
        (service.runOnce now stamp locked answer state.db).db) := by
  have ready := claim_ready reached claims roomy
  rw [runOnce_of_claim configured claims]
  refine ⟨fun earlier candidate later evidence split acceptable considered =>
    recover_settles_iff ready split acceptable considered,
    fun row overdue => recover_expires_iff ready overdue, fun pass => ⟨?_, ?_⟩⟩
  · intro candidate member acceptable evidence considered
    obtain ⟨earlier, later, split⟩ := List.append_of_mem member
    refine (recover_settles_iff ready split acceptable considered).mpr fun other before => ?_
    exact pass other (split ▸ List.mem_append_left _ before)
  · intro row overdue
    exact (recover_expires_iff ready overdue).mpr pass

/-- Two searches, the first of which reserves objects, are dispatched and lost; a worker
claims them and goes away. -/
def twoLost : List Operation :=
  [.reserve 0 ⟨10, 11, 0⟩ ((searchCall "first" "one" 5).admission 1),
    .reserve 0 ⟨20, 21, 0⟩ ((searchCall "second" "two" 0).admission 2),
    .dispatch 0 1 "first" second 0,
    .dispatch 0 2 "second" second 0,
    .markStaleAndClaim 99 99 0 (10 * second) (-1) "gone" second 5 []]

def twoLostStore : StoreState := twoLost.foldl StoreState.step (.initial [sampleChecksum])

theorem foldl_step_reachable {operations : List Operation} {state : StoreState}
    (reached : store.Reachable Transition.System.always state) :
    store.Reachable Transition.System.always (operations.foldl StoreState.step state) := by
  induction operations generalizing state with
  | nil => exact reached
  | cons operation rest ih => exact ih (reached.step trivial rfl)

theorem twoLostStore_reachable : store.Reachable Transition.System.always twoLostStore :=
  foldl_step_reachable (.of_initial sampleStore_initial)

/-- The search with this id succeeded; the owner of the other cannot be asked. -/
def succeededOnly (id : UUID) (candidate : Candidate) : Option OwnerReport :=
  if candidate.attemptId = id then
    some { succeededReport with backendRequestId := candidate.backendRequestId }
  else none

/-- The second search, which reserves no objects, succeeded: both candidates pass, the one is
settled and the other, whose hold is over, is expired. -/
theorem runOnce_unblocked_twoLost :
    ∃ candidates claimed,
      (sampleWorkers 0).claim (100 * second) 0 [] twoLostStore.db = .ok (candidates, claimed) ∧
      candidates.map (·.attemptId) = [1, 2] ∧
      ((sampleWorkers 0).overdue (100 * second) (candidates.foldl
        ((sampleWorkers 0).turn 0 (succeededOnly 2)) claimed)).map (·.attempt) = [1] ∧
      (sampleWorkers 0).Unblocked (100 * second) 0 (succeededOnly 2) candidates claimed
        ((sampleWorkers 0).runOnce (100 * second) 0 [] (succeededOnly 2) twoLostStore.db).db := by
  have checked : ((sampleWorkers 0).claim (100 * second) 0 [] twoLostStore.db).toOption.any
      (fun result => decide (result.1.map (·.attemptId) = [1, 2]) &&
        decide (((sampleWorkers 0).overdue (100 * second) (result.1.foldl
          ((sampleWorkers 0).turn 0 (succeededOnly 2)) result.2)).map (·.attempt) = [1]) &&
        decide result.2.Roomy &&
        result.1.all ((sampleWorkers 0).passes result.2 (succeededOnly 2))) = true := by
    decide +kernel
  obtain ⟨⟨candidates, claimed⟩, found, holds⟩ := (Option.any_eq_true _ _).mp checked
  simp only [Bool.and_eq_true, decide_eq_true_eq, List.all_eq_true] at holds
  obtain ⟨⟨⟨ids, overdue⟩, roomy⟩, pass⟩ := holds
  have claims := toOption_eq_some.mp found
  exact ⟨candidates, claimed, claims, ids, overdue,
    (runOnce_unblocked_iff twoLostStore_reachable (by decide) claims roomy).2.2 pass⟩

/-- The round ended with a refused success, and the second search is still claimed. -/
def Round.stuck (round : Round) : Bool :=
  decide (round.error = some (.store .objectEvidenceRequired)) &&
    decide ((round.db.attempts.get 2).bind (·.recoveryOwner) = some "first")

/-- The success of the first search needs inbox evidence and is refused, with which the round
ends.  The answer for the second is acceptable, but its claim is not released. -/
theorem refusedCandidate_blocks :
    ∃ candidates claimed, store.Reachable Transition.System.always twoLostStore ∧
      (sampleWorkers 0).claim (100 * second) 0 [] twoLostStore.db = .ok (candidates, claimed) ∧
      claimed.Roomy ∧
      ((sampleWorkers 0).runOnce (100 * second) 0 [] (succeededOnly 1) twoLostStore.db).error =
        some (.store .objectEvidenceRequired) ∧
      ¬ (sampleWorkers 0).Unblocked (100 * second) 0 (succeededOnly 1) candidates claimed
        ((sampleWorkers 0).runOnce (100 * second) 0 [] (succeededOnly 1) twoLostStore.db).db := by
  have checked : ((sampleWorkers 0).claim (100 * second) 0 [] twoLostStore.db).toOption.any
      (fun result => decide result.2.Roomy &&
        result.1.any (fun candidate => decide (candidate.attemptId = 2) &&
          candidate.acceptable result.2 (succeededOnly 1 candidate)) &&
        ((sampleWorkers 0).recover (100 * second) 0 (succeededOnly 1) result.1
          ⟨result.1.length, 0, 0, 0⟩ result.2).stuck) = true := by
    decide +kernel
  obtain ⟨⟨candidates, claimed⟩, found, holds⟩ := (Option.any_eq_true _ _).mp checked
  simp only [Bool.and_eq_true, decide_eq_true_eq, List.any_eq_true, Round.stuck] at holds
  obtain ⟨⟨roomy, candidate, member, own, acceptable⟩, error, claimedStill⟩ := holds
  have claims := toOption_eq_some.mp found
  refine ⟨candidates, claimed, twoLostStore_reachable, claims, roomy, ?_⟩
  rw [runOnce_of_claim (by decide) claims]
  refine ⟨error, ?_⟩
  intro unblocked
  have unanswered : succeededOnly 1 candidate = none := by simp [succeededOnly, own]
  obtain ⟨attempt, there, released⟩ := unblocked.applied candidate member acceptable _
    (unanswered ▸ consider_none candidate)
  rw [own] at there
  rw [there] at claimedStill
  cases released.symm.trans claimedStill

end OufMcp.Ledger
