import OufMcp.Ledger.Effects

/-!
# Transactions as moves

Each transaction of the store, taken apart: what it read, and the move or chain of
moves it commits.  Nothing after this module unfolds a transaction body.
-/

namespace OufMcp.Ledger

open Relational

variable {id ref : UUID} {stamp now : Time} {rows : Rows} {limit : Nat} {expectedRevision : Int}
  {result : CompensationResult} {req : AdmissionRequest}

/-! ## Attempt writes -/

theorem writeAttempt_eq_ok {db after : Database} {old new : ToolAttempt} :
    Store.writeAttempt db id old new = .ok after ↔
      ∃ attempts, db.attempts.Puts id new attempts ∧
        after = { db with
          attempts, audit := db.audit ++ captureOperationalAttemptAudit id (some old) new } := by
  unfold Store.writeAttempt
  rw [bind_eq_ok]
  constructor
  · rintro ⟨attempts, put, same⟩
    exact ⟨attempts, demand_eq_ok.mp put, (pure_eq_ok.mp same).symm⟩
  · rintro ⟨attempts, put, rfl⟩
    exact ⟨attempts, demand_eq_ok.mpr put, rfl⟩

theorem updateAttemptOne_eq_ok {db after : Database} {condition : ToolAttempt → Prop}
    [DecidablePred condition] {set : ToolAttempt → ToolAttempt} :
    Store.updateAttemptOne db id condition set = .ok after ↔
      ∃ attempt, db.attempts.get id = some attempt ∧ condition attempt ∧
        Store.writeAttempt db id attempt (set attempt) = .ok after := by
  unfold Store.updateAttemptOne
  simp only [bind_eq_ok, demand_eq_ok, ensure_eq_ok, exists_const]

theorem updateAttemptOne_of_get {db after : Database} {condition : ToolAttempt → Prop}
    [DecidablePred condition] {set : ToolAttempt → ToolAttempt} {attempt : ToolAttempt}
    (done : Store.updateAttemptOne db id condition set = .ok after)
    (found : db.attempts.get id = some attempt) :
    condition attempt ∧ ∃ attempts, db.attempts.Puts id (set attempt) attempts ∧
      after = { db with
        attempts
        audit := db.audit ++ captureOperationalAttemptAudit id (some attempt) (set attempt) } := by
  obtain ⟨row, also, holds, wrote⟩ := updateAttemptOne_eq_ok.mp done
  obtain rfl := Option.some.inj (found.symm.trans also)
  exact ⟨holds, writeAttempt_eq_ok.mp wrote⟩

/-! ## Dispatch and settlement -/

theorem markRunning_rewrites {db after : Database} {stamp lease : Time} {backendRequestId : String}
    {expected : Nat} (formed : db.WellFormed)
    (done : Store.markRunning db stamp id backendRequestId lease expected = .ok after) :
    ∃ old new, Rewrites .dispatch id db after old new := by
  unfold Store.markRunning at done
  simp only [bind_eq_ok, demand_eq_ok, ensure_eq_ok, exists_const, writeAttempt_eq_ok] at done
  obtain ⟨attempt, found, ⟨admitted, undispatched, -⟩, attempts, put, rfl⟩ := done
  obtain ⟨rows, held, rfl⟩ := formed.holds_of_attempt found
  refine ⟨rows, _, rfl, ?_, .dispatch backendRequestId (stamp + lease) admitted undispatched,
    rfl, rfl, rfl, rfl⟩
  exact ⟨held, rfl, rfl, rfl, rfl, .inl put, .of_get held.reservation, .of_get held.claim,
    .of_get held.window, .of_get held.guard, .inl ⟨rfl, rfl⟩, .of_eq rfl⟩

theorem reconcile_rewrites {db after : Database} {actual : Cost} {outcome : AttemptOutcome}
    (formed : db.WellFormed) (done : Store.reconcile db stamp id actual outcome = .ok after) :
    after = db ∨ ∃ old new, Rewrites (.settle actual) id db after old new := by
  unfold Store.reconcile at done
  simp only [bind_eq_ok, demand_eq_ok] at done
  obtain ⟨reservation, found, done⟩ := done
  obtain ⟨rows, held, rfl⟩ := formed.holds_of_reservation found
  split at done
  next => exact .inl (pure_eq_ok.mp done).symm
  next unsettled =>
    right
    simp only [bind_eq_ok, ensure_eq_ok, exists_const, Store.settle, demand_eq_ok, held.attempt,
      (formed.sound held).reservation, writeAttempt_eq_ok] at done
    obtain ⟨objects, windows, charged, reservations, reserved, attempts, put, rfl⟩ := done
    have wrote := Table.updateAny_of_get held.window charged
    refine ⟨rows, _, rfl, ?_, .settle actual outcome stamp unsettled (by omega), rfl, rfl, rfl,
      rfl⟩
    exact ⟨held, rfl, rfl, rfl, rfl, .inl put, .inl reserved, .of_get held.claim, .inl wrote,
      .of_get held.guard, .inl ⟨rfl, rfl⟩, .of_eq rfl⟩

/-- No attempt lacks its admission context, so maintenance finds nothing to mark. -/
theorem maintain_eq {db after : Database} (formed : db.WellFormed)
    (done : Store.maintain db now = .ok after) : after = db := by
  have none : (db.attempts.select fun id attempt =>
      decide (attempt.state = .running) && attempt.leaseUntil.any (· < now)
        && (db.contexts.get id).isNone) = [] := by
    apply List.eq_nil_iff_forall_not_mem.mpr
    rintro ⟨id, attempt⟩ member
    obtain ⟨found, selected⟩ := Table.mem_select.mp member
    obtain ⟨rows, held, rfl⟩ := formed.holds_of_attempt found
    simp [held.context] at selected
  unfold Store.maintain at done
  rw [none, List.foldlM_nil, pure_eq_ok] at done
  exact done.symm

theorem appendAudit_move {db after : Database} {event : AuditEvent}
    (done : Store.appendAudit db event = .ok after) : Move .append db after := by
  unfold Store.appendAudit at done
  simp only [bind_eq_ok, ensure_eq_ok, exists_const, pure_eq_ok] at done
  obtain ⟨-, -, rfl⟩ := done
  exact .append [event]

/-! ## Recovery -/

structure ExpiredAdmission.Of (row : ExpiredAdmission) (rows : Rows) : Prop where
  window : row.window = rows.context.budgetWindowId
  calls : row.calls = rows.reservation.reservedToolCalls
  bytes : row.bytes = rows.reservation.reservedResultBytes
  objects : row.objects = rows.reservation.reservedDistinctObjectsMax

structure StaleDispatch.Of (row : StaleDispatch) (rows : Rows) : Prop where
  window : row.window = rows.context.budgetWindowId
  group : row.group = rows.context.equivalenceGroupId
  objects : row.objects = rows.reservation.reservedDistinctObjectsMax

theorem expireAdmission_rewrites {db after : Database} {row : ExpiredAdmission}
    (held : db.Holds row.id rows) (of : row.Of rows)
    (done : Store.expireAdmission stamp db row = .ok after) :
    after = db ∨ ∃ new, Rewrites .releaseAdmission row.id db after rows new := by
  unfold Store.expireAdmission at done
  simp only [bind_eq_ok, demand_eq_ok] at done
  obtain ⟨attempt, found, done⟩ := done
  split at done
  next => exact .inl (pure_eq_ok.mp done).symm
  next =>
    right
    simp only [bind_eq_ok, pure_eq_ok] at done
    obtain ⟨windows, released, middle, failed, reservations, freed, claims, completed, rfl⟩ := done
    rw [of.window, of.calls, of.bytes, of.objects] at released
    have window := Table.updateAny_of_get held.window released
    obtain ⟨⟨admitted, undispatched⟩, attempts, put, rfl⟩ :=
      updateAttemptOne_of_get failed held.attempt
    obtain ⟨reserved, reservation⟩ := Table.updateOne_of_get held.reservation freed
    obtain ⟨bound, claim⟩ := Table.updateOne_of_get held.claim completed
    refine ⟨_, rfl, ?_, .releaseAdmission stamp admitted undispatched reserved bound,
      rfl, rfl, rfl, rfl⟩
    refine ⟨held, rfl, rfl, rfl, rfl, .inl put, .inl reservation, .inl claim, .inl window,
      .of_get held.guard, .inl ⟨rfl, rfl⟩, _, rfl, ?_⟩
    intro event member
    rw [List.mem_singleton.mp member]
    show operationalType "DISPATCH_NOT_STARTED" = false
    decide

theorem expireAdmission_found {db after : Database} {row : ExpiredAdmission}
    (done : Store.expireAdmission stamp db row = .ok after) :
    ∃ attempt, db.attempts.get row.id = some attempt := by
  unfold Store.expireAdmission at done
  simp only [bind_eq_ok, demand_eq_ok] at done
  obtain ⟨attempt, found, -⟩ := done
  exact ⟨attempt, found⟩

theorem markUnknown_found {db after : Database} {row : StaleDispatch}
    (done : Store.markUnknown now db row = .ok after) :
    ∃ attempt, db.attempts.get row.id = some attempt := by
  unfold Store.markUnknown at done
  simp only [bind_eq_ok, demand_eq_ok] at done
  obtain ⟨attempt, found, -⟩ := done
  exact ⟨attempt, found⟩

theorem markUnknown_rewrites {db after : Database} {row : StaleDispatch}
    (held : db.Holds row.id rows) (of : row.Of rows)
    (done : Store.markUnknown now db row = .ok after) :
    after = db ∨ ∃ new, Rewrites .lose row.id db after rows new := by
  unfold Store.markUnknown at done
  simp only [bind_eq_ok, demand_eq_ok] at done
  obtain ⟨attempt, found, done⟩ := done
  split at done
  next => exact .inl (pure_eq_ok.mp done).symm
  next =>
    right
    simp only [bind_eq_ok, pure_eq_ok] at done
    obtain ⟨middle, lost, guards, blocked, windows, moved, debts, opened, reservations, unknown,
      claims, forgotten, rfl⟩ := done
    obtain ⟨running, attempts, put, rfl⟩ := updateAttemptOne_of_get lost held.attempt
    rw [of.group] at blocked
    rw [of.window, of.objects] at moved
    rw [of.objects] at unknown
    have guard := (Table.updateOne_of_get held.guard blocked).2
    have window := Table.updateAny_of_get held.window moved
    obtain ⟨reserved, reservation⟩ := Table.updateOne_of_get held.reservation unknown
    obtain ⟨bound, claim⟩ := Table.updateOne_of_get held.claim forgotten
    rw [of.window, of.objects] at opened
    unfold Store.openDebt at opened
    split at opened
    next some =>
      obtain ⟨absent, debt⟩ := Table.insert?_eq_some.mp (demand_eq_ok.mp opened)
      refine ⟨_, rfl, ?_, .lose now _ running reserved bound
        (.inl ⟨some, held.debt.symm.trans absent, rfl⟩), rfl, rfl, rfl, rfl⟩
      exact ⟨held, rfl, rfl, rfl, rfl, .inl put, .inl reservation, .inl claim, .inl window,
        .inl guard, .inr ⟨_, rfl, debt⟩, .of_eq rfl⟩
    next none =>
      obtain rfl := pure_eq_ok.mp opened
      refine ⟨_, rfl, ?_, .lose now rows.debt running reserved bound
        (.inr ⟨by omega, rfl⟩), rfl, rfl, rfl, rfl⟩
      exact ⟨held, rfl, rfl, rfl, rfl, .inl put, .inl reservation, .inl claim, .inl window,
        .inl guard, .inl ⟨rfl, rfl⟩, .of_eq rfl⟩

theorem hold_rewrites {db : Database} (held : db.Holds id rows)
    (unknown : rows.attempt.state = .unknown) (owner : Option (String × Time)) {new : ToolAttempt}
    (shape : new = match owner with
      | some (worker, leaseUntil) => rows.attempt.hold worker leaseUntil
      | none => rows.attempt.letGo) {attempts : Table UUID toolAttempt}
    (put : db.attempts.Puts id new attempts) :
    Rewrites .hold id db { db with
      attempts
      audit := db.audit ++ captureOperationalAttemptAudit id (some rows.attempt) new } rows
      { rows with attempt := new } := by
  subst shape
  refine ⟨rfl, ?_, .hold owner unknown, rfl, rfl, rfl, rfl⟩
  exact ⟨held, rfl, rfl, rfl, rfl, .inl put, .of_get held.reservation, .of_get held.claim,
    .of_get held.window, .of_get held.guard, .inl ⟨rfl, rfl⟩, .of_eq rfl⟩

theorem claimCandidate_rewrites {db after : Database} {worker : String} {leaseUntil : Time}
    {row : Candidate} (formed : db.WellFormed)
    (done : Store.claimCandidate worker leaseUntil db row = .ok after) :
    ∃ old new, Rewrites .hold row.attemptId db after old new := by
  unfold Store.claimCandidate at done
  simp only [bind_eq_ok, demand_eq_ok, ensure_eq_ok, exists_const, writeAttempt_eq_ok] at done
  obtain ⟨attempt, found, unknown, attempts, put, rfl⟩ := done
  obtain ⟨rows, held, rfl⟩ := formed.holds_of_attempt found
  exact ⟨rows, _, hold_rewrites held unknown (some (worker, leaseUntil)) rfl put⟩

theorem foldlM_moves {α : Type} {body : Database → α → Except StoreError Database}
    {allowed : Kind → Prop} {rows : List α} {first last : Database} (formed : first.WellFormed)
    (pass : ∀ db row after, row ∈ rows → db.WellFormed → Moves allowed first db →
      body db row = .ok after → Moves allowed db after)
    (done : rows.foldlM body first = .ok last) : Moves allowed first last := by
  have general := foldlM_induction (R := fun a b => a.WellFormed → Moves allowed a b)
    (fun _ _ => .refl)
    (fun a b c firstPart secondPart formed =>
      (firstPart formed).trans (secondPart ((firstPart formed).wellFormed formed)))
    (fun db row after member reached passed _ =>
      have moves := reached formed
      pass db row after member (moves.wellFormed formed) moves passed)
    done
  exact general formed

theorem of_selectExpiredAdmissions {seen : Database} {admittedBefore : Time}
    {row : ExpiredAdmission} (formed : seen.WellFormed)
    (member : row ∈ Store.selectExpiredAdmissions seen admittedBefore limit) :
    ∃ rows, seen.Holds row.id rows ∧ row.Of rows := by
  obtain ⟨⟨id, attempt⟩, selected, joined⟩ :=
    List.mem_filterMap.mp (mem_of_mem_firstBy member)
  obtain ⟨rows, held, rfl⟩ := formed.holds_of_attempt (Table.mem_select.mp selected).1
  simp only [held.context, held.reservation, Option.some.injEq] at joined
  subst joined
  exact ⟨rows, held, rfl, rfl, rfl, rfl⟩

theorem of_selectStaleDispatches {seen : Database} {row : StaleDispatch} (formed : seen.WellFormed)
    (member : row ∈ Store.selectStaleDispatches seen now limit) :
    ∃ rows, seen.Holds row.id rows ∧ row.Of rows := by
  obtain ⟨⟨id, attempt⟩, selected, joined⟩ :=
    List.mem_filterMap.mp (mem_of_mem_firstBy member)
  obtain ⟨rows, held, rfl⟩ := formed.holds_of_attempt (Table.mem_select.mp selected).1
  simp only [held.context, held.reservation, Option.some.injEq] at joined
  subst joined
  exact ⟨rows, held, rfl, rfl, rfl⟩

theorem ExpiredAdmission.Of.kept {row : ExpiredAdmission} {old new : Rows} (of : row.Of old)
    (kept : old.Kept new) : row.Of new :=
  ⟨of.window.trans (by rw [kept.context]), of.calls.trans kept.toolCalls.symm,
    of.bytes.trans kept.resultBytes.symm, of.objects.trans kept.distinctObjects.symm⟩

theorem StaleDispatch.Of.kept {row : StaleDispatch} {old new : Rows} (of : row.Of old)
    (kept : old.Kept new) : row.Of new :=
  ⟨of.window.trans (by rw [kept.context]), of.group.trans (by rw [kept.context]),
    of.objects.trans kept.distinctObjects.symm⟩

def Kind.stale (kind : Kind) : Prop := kind = .releaseAdmission ∨ kind = .lose ∨ kind = .hold

theorem Kind.stale.ne_admission {kind : Kind} (stale : kind.stale) : kind ≠ .admission := by
  rintro rfl
  rcases stale with impossible | impossible | impossible <;> cases impossible

theorem markStaleAndClaim_moves {admissions dispatches db after : Database}
    {stamp now admittedBefore lease : Time} {worker : String} {locked : List UUID}
    {candidates : List Candidate} (formed : db.WellFormed)
    (first : admissions.WellFormed ∧ admissions.Precedes db)
    (second : dispatches.WellFormed ∧ dispatches.Precedes db)
    (done : Store.markStaleAndClaim admissions dispatches db stamp now admittedBefore worker lease
      limit locked = .ok (candidates, after)) : Moves Kind.stale db after := by
  unfold Store.markStaleAndClaim at done
  simp only [bind_eq_ok, pure_eq_ok] at done
  obtain ⟨released, releases, lost, loses, out, -, claimed, claims, same⟩ := done
  obtain ⟨rfl, rfl⟩ := Prod.mk.inj same
  have releaseMoves : Moves Kind.stale db released := by
    refine foldlM_moves formed ?_ releases
    intro current row next member _ moved passed
    obtain ⟨seen, found, of⟩ := of_selectExpiredAdmissions first.1 member
    obtain ⟨attempt, there⟩ := expireAdmission_found passed
    have earlier := moved.precedes formed (fun _ => Kind.stale.ne_admission) first.2
    obtain ⟨rows, held, kept⟩ := earlier.holds found there
    rcases expireAdmission_rewrites held (of.kept kept) passed with rfl | ⟨new, rewrites⟩
    · exact .refl
    · exact .single (.rewrite rewrites) (.inl rfl)
  have releasedFormed := releaseMoves.wellFormed formed
  have loseMoves : Moves Kind.stale released lost := by
    refine foldlM_moves releasedFormed ?_ loses
    intro current row next member _ moved passed
    obtain ⟨seen, found, of⟩ := of_selectStaleDispatches second.1 member
    obtain ⟨attempt, there⟩ := markUnknown_found passed
    have earlier := (releaseMoves.trans moved).precedes formed
      (fun _ => Kind.stale.ne_admission) second.2
    obtain ⟨rows, held, kept⟩ := earlier.holds found there
    rcases markUnknown_rewrites held (of.kept kept) passed with rfl | ⟨new, rewrites⟩
    · exact .refl
    · exact .single (.rewrite rewrites) (.inr (.inl rfl))
  have claimMoves : Moves Kind.stale lost claimed := by
    refine foldlM_moves (loseMoves.wellFormed releasedFormed) ?_ claims
    intro current row next _ currentFormed _ passed
    obtain ⟨old, new, rewrites⟩ := claimCandidate_rewrites currentFormed passed
    exact .single (.rewrite rewrites) (.inr (.inr rfl))
  exact (releaseMoves.trans loseMoves).trans claimMoves

/-! ## Owner outcomes and expiry -/

theorem applyOwnerEvidence_rewrites {db after : Database} {worker : String}
    {evidence : OwnerEvidence} (formed : db.WellFormed)
    (done : Store.applyOwnerEvidence db stamp id worker evidence = .ok after) :
    after = db ∨ (∃ old new, Rewrites .hold id db after old new) ∨
      (evidence.outcome ≠ .unknown ∧ ∃ old new, Rewrites .recover id db after old new) := by
  unfold Store.applyOwnerEvidence at done
  simp only [bind_eq_ok, demand_eq_ok] at done
  obtain ⟨context, inContext, attempt, found, backendRequestId, -, done⟩ := done
  obtain ⟨rows, held, rfl⟩ := formed.holds_of_attempt found
  obtain rfl := Option.some.inj (held.context.symm.trans inContext)
  split at done
  next => exact .inl (pure_eq_ok.mp done).symm
  next unknown =>
    right
    simp only [ne_eq, Decidable.not_not] at unknown
    simp only [bind_eq_ok, ensure_eq_ok, exists_const] at done
    obtain ⟨-, done⟩ := done
    split at done
    next =>
      left
      obtain ⟨-, attempts, put, rfl⟩ := updateAttemptOne_of_get done held.attempt
      exact ⟨rows, _, hold_rewrites held unknown none rfl put⟩
    next decided =>
      refine .inr ⟨decided, ?_⟩
      simp only [bind_eq_ok, demand_eq_ok, ensure_eq_ok, exists_const, held.reservation,
        Option.some.injEq, exists_eq_left', Store.applyOwnerOutcome, pure_eq_ok] at done
      obtain ⟨uncertain, cost, objects, windows, charged, guards, unblocked, middle, recovered,
        reservations, settled, claims, completed, rfl⟩ := done
      have window := Table.updateAny_of_get held.window charged
      obtain ⟨blocked, guard⟩ := Table.updateOne_of_get held.guard unblocked
      obtain ⟨-, attempts, put, rfl⟩ := updateAttemptOne_of_get recovered held.attempt
      have reservation := (Table.updateOne_of_get held.reservation settled).2
      obtain ⟨lost, claim⟩ := Table.updateOne_of_get held.claim completed
      refine ⟨rows, _, rfl, ?_, .recover evidence stamp unknown uncertain lost (by omega)
        (by omega) (by omega) blocked, rfl, rfl, rfl, rfl⟩
      exact ⟨held, rfl, rfl, rfl, rfl, .inl put, .inl reservation, .inl claim, .inl window,
        .inl guard, .inl ⟨rfl, rfl⟩, .of_eq rfl⟩

theorem expireOne_rewrites {db after : Database} {row : ExpiryCandidate}
    (held : db.Holds row.attempt rows) (of : row.window = rows.context.budgetWindowId)
    (done : Store.expireOne now db row = .ok after) :
    after = db ∨ ∃ new, Rewrites .expire row.attempt db after rows new := by
  unfold Store.expireOne at done
  simp only [bind_eq_ok, demand_eq_ok, held.attempt, Option.some.injEq, exists_eq_left'] at done
  split at done
  next => exact .inl (pure_eq_ok.mp done).symm
  next unknown =>
    right
    simp only [ne_eq, Decidable.not_not] at unknown
    simp only [bind_eq_ok, demand_eq_ok, ensure_eq_ok, exists_const, held.reservation,
      Option.some.injEq, exists_eq_left', of] at done
    obtain ⟨uncertain, windows, charged, reservations, settled, claims, completed, expired⟩ := done
    have window := Table.updateAny_of_get held.window charged
    have reservation := (Table.updateOne_of_get held.reservation settled).2
    obtain ⟨lost, claim⟩ := Table.updateOne_of_get held.claim completed
    obtain ⟨-, attempts, put, rfl⟩ := updateAttemptOne_of_get expired held.attempt
    refine ⟨_, rfl, ?_, .expire now unknown uncertain lost, rfl, rfl, rfl, rfl⟩
    exact ⟨held, rfl, rfl, rfl, rfl, .inl put, .inl reservation, .inl claim, .inl window,
      .of_get held.guard, .inl ⟨rfl, rfl⟩, .of_eq rfl⟩

theorem expireOne_found {db after : Database} {row : ExpiryCandidate}
    (done : Store.expireOne now db row = .ok after) :
    ∃ attempt, db.attempts.get row.attempt = some attempt := by
  unfold Store.expireOne at done
  simp only [bind_eq_ok, demand_eq_ok] at done
  obtain ⟨attempt, found, -⟩ := done
  exact ⟨attempt, found⟩

theorem of_selectExpiredUnknown {seen : Database} {now unknownBefore : Time} {row : ExpiryCandidate}
    (formed : seen.WellFormed)
    (member : row ∈ Store.selectExpiredUnknown seen now unknownBefore limit) :
    ∃ rows, seen.Holds row.attempt rows ∧ row.window = rows.context.budgetWindowId := by
  obtain ⟨⟨id, attempt⟩, selected, joined⟩ :=
    List.mem_filterMap.mp (mem_of_mem_firstBy member)
  obtain ⟨rows, held, rfl⟩ := formed.holds_of_attempt (Table.mem_select.mp selected).1
  simp only [held.context, Option.map_some, Option.some.injEq] at joined
  subst joined
  exact ⟨rows, held, rfl⟩

theorem expireUnknown_moves {seen db after : Database} {now unknownBefore : Time}
    (formed : db.WellFormed) (earlier : seen.WellFormed ∧ seen.Precedes db)
    (done : Store.expireUnknown seen db now unknownBefore limit = .ok after) :
    Moves (· = .expire) db after := by
  refine foldlM_moves formed ?_ done
  intro current row next member _ moved passed
  obtain ⟨old, found, of⟩ := of_selectExpiredUnknown earlier.1 member
  obtain ⟨attempt, there⟩ := expireOne_found passed
  have quiet : ∀ kind, kind = Kind.expire → kind ≠ .admission := by
    rintro _ rfl impossible
    cases impossible
  obtain ⟨rows, held, kept⟩ := (moved.precedes formed quiet earlier.2).holds found there
  rcases expireOne_rewrites held (of.trans (by rw [kept.context])) passed with
    rfl | ⟨new, rewrites⟩
  · exact .refl
  · exact .single (.rewrite rewrites) rfl

/-! ## Evidence -/

def Verified.row (input : Verified) (id window : UUID) (evidenceKind : EvidenceKind)
    (terminalState : TerminalState) (objectHashes : List String) : InboxEvidence where
  attemptId := id
  budgetWindowId := window
  backendOwner := input.backendOwner
  backendRequestId := input.backendRequestId
  evidenceKind := evidenceKind
  terminalState := terminalState
  terminalOutcomeCode := input.outcomeCode
  resultRef := nullifEmpty input.resultRef
  actualDistinctObjects := input.actualDistinctObjects
  objectHashes := objectHashes
  evidencePayloadHash := input.payloadHash
  evidenceState := .verified
  consumedAt := none

/-- Ingress finds the same evidence again, or stores it for the attempt of its request. -/
theorem insertVerifiedEvidence_cases {db after : Database} {input : Verified}
    {result : IngressResult}
    (done : Store.insertVerifiedEvidence db input = .ok (result, after)) :
    (∃ row, db.evidence.get result.evidenceRef = some row ∧
        row.backendOwner = input.backendOwner ∧ row.backendRequestId = input.backendRequestId ∧
        row.evidencePayloadHash = input.payloadHash ∧ result.replay = true ∧ after = db) ∨
      ∃ id context kind terminal hashes evidence,
        Store.attemptFor db input.backendRequestId input.backendOwner = some (id, context) ∧
        input.objectHashes = some hashes ∧ db.evidence.get input.evidenceRef = none ∧
        db.evidence.Puts input.evidenceRef
          (input.row id context.budgetWindowId kind terminal hashes) evidence ∧
        result = ⟨input.evidenceRef, false⟩ ∧ after = { db with evidence } := by
  unfold Store.insertVerifiedEvidence at done
  split at done
  next existingRef existing selected =>
    left
    simp only [bind_eq_ok, ensure_eq_ok, exists_const, pure_eq_ok, Prod.mk.injEq] at done
    obtain ⟨sameHash, rfl, rfl⟩ := done
    have matched := List.find?_some selected
    obtain ⟨owner, request⟩ := of_decide_eq_true matched
    exact ⟨existing, Table.mem_toList.mp (List.mem_of_find?_eq_some selected), owner, request,
      sameHash, rfl, rfl⟩
  next =>
    right
    simp only [bind_eq_ok, demand_eq_ok, pure_eq_ok, Prod.mk.injEq, Prod.exists] at done
    obtain ⟨id, context, belongs, kind, -, terminal, -, hashes, listed, evidence, inserted, rfl,
      rfl⟩ := done
    obtain ⟨fresh, put⟩ := Table.insert?_eq_some.mp inserted
    exact ⟨id, context, kind, terminal, hashes, evidence, belongs, listed, fresh, put, rfl, rfl⟩

theorem attemptFor_eq_some {db : Database} {backendRequestId owner : String}
    {context : AdmissionContext}
    (belongs : Store.attemptFor db backendRequestId owner = some (id, context)) :
    ∃ attempt, db.attempts.get id = some attempt ∧ db.contexts.get id = some context ∧
      attempt.backendRequestId = some backendRequestId ∧ context.owner = owner := by
  obtain ⟨⟨other, attempt⟩, listed, joined⟩ :=
    List.mem_filterMap.mp (List.mem_of_mem_head? belongs)
  obtain ⟨found, inContext, joined⟩ := Option.bind_eq_some_iff.mp joined
  split at joined
  next matched =>
    obtain ⟨rfl, rfl⟩ := Prod.mk.inj (Option.some.inj joined)
    exact ⟨attempt, Table.mem_toList.mp listed, inContext, matched.1, matched.2⟩
  next => cases joined

theorem insertVerifiedEvidence_move {db after : Database} {input : Verified}
    {result : IngressResult} (formed : db.WellFormed)
    (done : Store.insertVerifiedEvidence db input = .ok (result, after)) :
    after = db ∨ Move .ingest db after := by
  rcases insertVerifiedEvidence_cases done with ⟨-, -, -, -, -, -, rfl⟩ |
    ⟨id, context, kind, terminal, hashes, evidence, belongs, -, fresh, put, -, rfl⟩
  · exact .inl rfl
  · right
    obtain ⟨attempt, found, inContext, request, owner⟩ := attemptFor_eq_some belongs
    obtain ⟨rows, held, rfl⟩ := formed.holds_of_attempt found
    obtain rfl := Option.some.inj (held.context.symm.trans inContext)
    exact .ingest input.evidenceRef _ evidence held ⟨rfl, owner.symm, request⟩ fresh rfl put

/-- An incident is recorded once, with a row of its own in the audit log. -/
theorem insertIncident_eq {db after : Database} {key : String} {incident : SecurityIncident}
    (done : Store.insertIncident db key incident = .ok after) :
    ∃ incidents extra, after = { db with incidents, audit := db.audit ++ extra } ∧
      (∀ event ∈ extra, event.operational = false) ∧
      ∀ other row, incidents.get other = some row →
        db.incidents.get other = some row ∨ row = incident := by
  unfold Store.insertIncident at done
  split at done
  next =>
    refine ⟨db.incidents, [], ?_, List.forall_mem_nil _, fun _ _ found => .inl found⟩
    rw [List.append_nil]
    exact (Except.ok.inj done).symm
  next =>
    simp only [bind_eq_ok, demand_eq_ok, pure_eq_ok] at done
    obtain ⟨incidents, inserted, rfl⟩ := done
    obtain ⟨-, put⟩ := Table.insert?_eq_some.mp inserted
    refine ⟨incidents, _, rfl, ?_, ?_⟩
    · intro event member
      rw [List.mem_singleton.mp member]
      show operationalType "OPERATIONAL_SECURITY_ATTENTION" = false
      decide
    · intro other row found
      by_cases here : other = key
      · subst here
        exact .inr (Option.some.inj (found.symm.trans put.get_self))
      · exact .inl ((put.get_of_ne here).symm.trans found)

/-- Inserting hashes counts exactly the objects that were new in the window. -/
theorem foldlM_insertObject {window : UUID} {hashes : List String} {count total : Int}
    {objects after : Table DistinctObject budgetDistinctObject}
    (done : hashes.foldlM (Store.insertObject window) (count, objects) = .ok (total, after)) :
    count ≤ total ∧ total ≤ count + hashes.length ∧
      ∀ other, objectsIn after other = objectsIn objects other +
        if other = window then total - count else 0 := by
  induction hashes generalizing count objects with
  | nil =>
    rw [List.foldlM_nil, pure_eq_ok] at done
    obtain ⟨rfl, rfl⟩ := Prod.mk.inj done
    simp
  | cons hash rest ih =>
    rw [List.foldlM_cons, bind_eq_ok] at done
    obtain ⟨⟨middle, inserted⟩, first, remaining⟩ := done
    obtain ⟨grows, bounded, counted⟩ := ih remaining
    have length : ((hash :: rest).length : Int) = rest.length + 1 := by simp
    unfold Store.insertObject at first
    simp only at first
    split at first
    next =>
      obtain ⟨rfl, rfl⟩ := Prod.mk.inj (Except.ok.inj first)
      exact ⟨grows, by omega, counted⟩
    next =>
      simp only [bind_eq_ok, demand_eq_ok, pure_eq_ok, Prod.mk.injEq] at first
      obtain ⟨_, put, rfl, rfl⟩ := first
      obtain ⟨fresh, put⟩ := Table.insert?_eq_some.mp put
      refine ⟨by omega, by omega, fun other => ?_⟩
      have added := put.sum fun row _ => if row.budgetWindowId = other then (1 : Int) else 0
      rw [fresh, Option.elim_none, add_zero] at added
      rw [counted other]
      unfold objectsIn
      rw [added]
      by_cases same : other = window
      · simp only [same, if_true]
        omega
      · have differ : window ≠ other := fun impossible => same impossible.symm
        simp only [same, differ, if_false, add_zero]

def Database.violation (db : Database) (id ref : UUID) : Option Violation :=
  match db.contexts.get id, db.debts.get id, db.evidence.get ref with
  | some context, some debt, some evidence =>
    (db.windows.get context.budgetWindowId).bind fun window =>
      evidence.violation window.allowedObjectHashVersions debt.debtAmount
  | _, _, _ => none

theorem commitViolation_move {db after : Database} {evidence : InboxEvidence}
    {violation : Violation} {debt : ObjectDebt} (held : db.Holds id rows)
    (owed : rows.debt = some debt) (active : debt.debtState = .active)
    (found : db.evidence.get ref = some evidence) (mine : evidence.attemptId = id)
    (done : Store.commitViolation db stamp id ref evidence expectedRevision violation =
      .ok (result, after)) : Move (.violate ref) db after := by
  unfold Store.commitViolation Store.concludeAttempt Store.quarantineEvidence at done
  simp only [bind_eq_ok, pure_eq_ok, Prod.mk.injEq] at done
  obtain ⟨middle, concluded, final, ⟨inbox, quarantined, recorded⟩, -, rfl⟩ := done
  obtain ⟨⟨-, uncertain⟩, attempts, put, rfl⟩ := updateAttemptOne_of_get concluded held.attempt
  obtain ⟨verified, evidencePut⟩ := Table.updateOne_of_get found quarantined
  obtain ⟨incidents, extra, rfl, ordinary, recorded⟩ := insertIncident_eq recorded
  subst mine
  refine .violate stamp found verified ?_
    (.violate ref stamp violation.code evidence.resultRef debt uncertain owed active)
    evidencePut rfl rfl ?_
  · exact ⟨held, rfl, rfl, rfl, rfl, .inl put, .of_get held.reservation, .of_get held.claim,
      .of_get held.window, .of_get held.guard, .inl ⟨rfl, rfl⟩, extra, rfl, ordinary⟩
  · intro key row here
    rcases recorded key row here with old | rfl
    · exact .inl old
    · exact .inr ⟨evidence, found, rfl⟩

/-- Evidence without a violation reports its distinct objects, within the debt. -/
theorem InboxEvidence.no_violation {evidence : InboxEvidence} {allowedVersions : List String}
    {debt : Int} (clean : evidence.violation allowedVersions debt = none) :
    (evidence.objectHashes.dedup.length : Int) ≤ debt := by
  unfold InboxEvidence.violation at clean
  split at clean
  next => cases clean
  next =>
    split at clean
    next => cases clean
    next sound =>
      simp only [not_or, ne_eq, Decidable.not_not] at sound
      omega

theorem compensate_move {db after : Database} {evidence : InboxEvidence} {debt : ObjectDebt}
    (held : db.Holds id rows) (owed : rows.debt = some debt)
    (uncertain : rows.attempt.state.uncertain = true) (found : db.evidence.get ref = some evidence)
    (mine : evidence.attemptId = id)
    (clean : (evidence.objectHashes.dedup.length : Int) ≤ debt.debtAmount)
    (done : Store.compensate db stamp id ref rows.context rows.attempt rows.reservation
      debt.debtAmount evidence expectedRevision = .ok (result, after)) :
    ∃ inserted, Move (.compensate ref inserted) db after := by
  unfold Store.compensate Store.concludeAttempt at done
  simp only [bind_eq_ok, pure_eq_ok, Prod.exists, Prod.mk.injEq, demand_eq_ok] at done
  obtain ⟨inserted, objects, insertion, debts, resolved, windows, charged, guards, unblocked,
    middle, released, adjustments, adjusted, final, concluded, inbox, consumed, -, rfl⟩ := done
  obtain ⟨atLeast, atMost, counted⟩ := foldlM_insertObject insertion
  obtain ⟨⟨-, active⟩, debtPut⟩ := Table.updateOne_of_get (held.debt.trans owed) resolved
  obtain ⟨covered, windowPut⟩ := Table.updateOne_of_get held.window charged
  obtain ⟨blocked, guardPut⟩ := Table.updateOne_of_get held.guard unblocked
  have bounds : 0 ≤ inserted ∧ inserted ≤ debt.debtAmount := by omega
  have objectsCounted : ∀ window, objectsIn objects window = objectsIn db.objects window +
      if window = rows.context.budgetWindowId then inserted else 0 := by
    intro window
    rw [counted window, Int.sub_zero]
  subst mine
  unfold Store.releaseUnknown at released
  split at released
  next unknown =>
    unfold Store.releaseUncertain at released
    simp only [bind_eq_ok, ensure_eq_ok, exists_const, pure_eq_ok] at released
    obtain ⟨⟨proof, lost⟩, windows', released, reservations, freed, claims, completed, rfl⟩ :=
      released
    have windowPut' := (Table.updateOne_of_get windowPut.get_self released).2
    have reservationPut := (Table.updateOne_of_get held.reservation freed).2
    obtain ⟨unclaimed, claimPut⟩ := Table.updateOne_of_get held.claim completed
    obtain ⟨fresh, adjustmentPut⟩ := Table.insert?_eq_some.mp adjusted
    obtain ⟨-, attempts, put, rfl⟩ := updateAttemptOne_of_get concluded held.attempt
    obtain ⟨verified, evidencePut⟩ := Table.updateOne_of_get found consumed
    rw [if_pos proof] at put
    refine ⟨inserted, .compensate stamp found verified ?_
      (.compensateUnknown stamp ref inserted evidence.terminalState evidence.terminalOutcomeCode
        evidence.resultRef debt unknown lost unclaimed owed active covered bounds blocked)
      evidencePut objectsCounted fresh ⟨rfl, rfl⟩ adjustmentPut rfl⟩
    exact ⟨held, rfl, rfl, rfl, rfl, .inl put,
      .inl reservationPut, .inl claimPut, .inl (windowPut.overwrite windowPut'),
      .inl guardPut, .inr ⟨_, rfl, debtPut⟩, .of_eq rfl⟩
  next known =>
    obtain rfl := pure_eq_ok.mp released
    have unresolved : rows.attempt.state = .unresolved := by
      cases state : rows.attempt.state <;> simp_all [AttemptState.uncertain]
    obtain ⟨fresh, adjustmentPut⟩ := Table.insert?_eq_some.mp adjusted
    obtain ⟨-, attempts, put, rfl⟩ := updateAttemptOne_of_get concluded held.attempt
    obtain ⟨verified, evidencePut⟩ := Table.updateOne_of_get found consumed
    refine ⟨inserted, .compensate stamp found verified ?_
      (.compensateUnresolved stamp ref inserted evidence.terminalState
        (if evidence.evidenceKind = .ownerProvesNoDispatch then .notDispatched else .acknowledged)
        evidence.terminalOutcomeCode evidence.resultRef debt unresolved owed active covered bounds
        blocked)
      evidencePut objectsCounted fresh ⟨rfl, rfl⟩ adjustmentPut rfl⟩
    exact ⟨held, rfl, rfl, rfl, rfl, .inl put, .of_get held.reservation, .of_get held.claim,
      .inl windowPut, .inl guardPut, .inr ⟨_, rfl, debtPut⟩, .of_eq rfl⟩

theorem commitViolation_concludes {db after : Database} {evidence : InboxEvidence}
    {violation : Violation}
    (done : Store.commitViolation db stamp id ref evidence expectedRevision violation =
      .ok (result, after)) : result.disposition.concludes = true := by
  simp only [Store.commitViolation, bind_eq_ok, pure_eq_ok, Prod.mk.injEq] at done
  obtain ⟨-, -, -, -, rfl, -⟩ := done
  rfl

theorem compensate_concludes {db after : Database} {context : AdmissionContext}
    {attempt : ToolAttempt} {reservation : BudgetReservation} {debt expectedRevision : Int}
    {evidence : InboxEvidence}
    (done : Store.compensate db stamp id ref context attempt reservation debt evidence
      expectedRevision = .ok (result, after)) : result.disposition.concludes = true := by
  simp only [Store.compensate, bind_eq_ok, pure_eq_ok, Prod.mk.injEq] at done
  obtain ⟨-, -, -, -, -, -, -, -, -, -, -, -, -, -, -, -, rfl, -⟩ := done
  rfl

/-- `LateCompensate` reports, records an incident, quarantines violating evidence with its
attempt, or spends the evidence.  Evidence that names the attempt is always bound to it. -/
theorem lateCompensate_move {seen db after : Database} (formed : db.WellFormed)
    (done : Store.lateCompensate seen db stamp id ref expectedRevision = .ok (result, after)) :
    after = db ∨ Move .note db after ∨
      (result.disposition.concludes = true ∧
        (∃ row, db.evidence.get ref = some row ∧ row.attemptId = id) ∧
        ((db.violation id ref ≠ none ∧ Move (.violate ref) db after) ∨
          ∃ inserted, Move (.compensate ref inserted) db after)) := by
  unfold Store.lateCompensate at done
  simp only [bind_eq_ok, demand_eq_ok] at done
  obtain ⟨preliminary, -, done⟩ := done
  split at done
  next =>
    simp only [bind_eq_ok, pure_eq_ok, Prod.mk.injEq] at done
    obtain ⟨-, -, -, rfl⟩ := done
    exact .inl rfl
  next =>
    unfold Store.lateCompensateLocked at done
    simp only [bind_eq_ok, demand_eq_ok, ensure_eq_ok, exists_const] at done
    obtain ⟨context, inContext, window, inWindow, attempt, found, backendRequestId, request,
      ⟨-, uncertain⟩, reservation, reserved, debt, inDebt, ⟨-, active⟩, evidence, inbox, done⟩ :=
      done
    obtain ⟨rows, held, rfl⟩ := formed.holds_of_attempt found
    obtain rfl := Option.some.inj (held.context.symm.trans inContext)
    obtain rfl := Option.some.inj (held.window.symm.trans inWindow)
    obtain rfl := Option.some.inj (held.reservation.symm.trans reserved)
    have owed : rows.debt = some debt := held.debt.symm.trans inDebt
    split at done
    next => exact .inl (Prod.mk.inj (pure_eq_ok.mp done)).2.symm
    next =>
      split at done
      next => exact .inl (Prod.mk.inj (pure_eq_ok.mp done)).2.symm
      next =>
        split at done
        next =>
          simp only [bind_eq_ok, pure_eq_ok, Prod.mk.injEq] at done
          obtain ⟨final, recorded, -, rfl⟩ := done
          obtain ⟨incidents, extra, rfl, ordinary, recorded⟩ := insertIncident_eq recorded
          refine .inr (.inl (.note incidents extra ordinary ?_))
          intro key row here
          rcases recorded key row here with old | rfl
          · exact .inl old
          · exact .inr ⟨evidence, inbox, rfl⟩
        next mine =>
          simp only [ne_eq, Decidable.not_not] at mine
          obtain ⟨bound, also, scope⟩ := formed.inbox ref evidence inbox
          rw [mine] at also
          obtain rfl := held.unique also
          split at done
          next mismatch =>
            exfalso
            rcases mismatch with window | owner | sent
            · exact window scope.window
            · exact owner scope.owner
            · exact sent (Option.some.inj (scope.request.symm.trans request))
          next =>
            refine .inr (.inr ?_)
            split at done
            next violation violated =>
              refine ⟨commitViolation_concludes done, ⟨evidence, inbox, mine⟩, .inl ?_⟩
              refine ⟨?_, commitViolation_move held owed active inbox mine done⟩
              simp [Database.violation, held.context, held.window, inDebt, inbox, violated]
            next clean =>
              refine ⟨compensate_concludes done, ⟨evidence, inbox, mine⟩, .inr ?_⟩
              exact compensate_move held owed uncertain inbox mine
                (InboxEvidence.no_violation clean) done

/-! ## Admission -/

theorem upsertWindow_moves {db after : Database} {fresh id : UUID} {policyRef : String}
    {start : Time} (done : Store.upsertWindow db fresh req policyRef start = .ok (id, after)) :
    Moves (· = .prepare) db after ∧ (∃ windows, after = { db with windows }) ∧
      ∃ window, after.windows.get id = some window ∧ window.policyRef = policyRef := by
  unfold Store.upsertWindow at done
  split at done
  next stored row existing =>
    obtain ⟨rfl, rfl⟩ := Prod.mk.inj (Except.ok.inj done)
    refine ⟨.refl, ⟨db.windows, rfl⟩, row, ?_, ?_⟩
    · exact Table.mem_toList.mp (List.mem_of_find?_eq_some existing)
    · have matched := List.find?_some existing
      simp only [decide_eq_true_eq] at matched
      exact matched.2.2.2.1
  next =>
    simp only [bind_eq_ok, demand_eq_ok, pure_eq_ok, Prod.mk.injEq] at done
    obtain ⟨windows, inserted, rfl, rfl⟩ := done
    obtain ⟨unused, put⟩ := Table.insert?_eq_some.mp inserted
    exact ⟨.single (.openWindow _ _ windows unused (req.newWindow_unused policyRef start) put) rfl,
      ⟨windows, rfl⟩, _, put.get_self, rfl⟩

theorem upsertGroup_moves {db after : Database} {fresh id : UUID} {group : EquivalenceGroup}
    (done : Store.upsertGroup db fresh group = .ok (id, after)) :
    Moves (· = .prepare) db after ∧ ∃ groups, after = { db with groups } := by
  unfold Store.upsertGroup at done
  split at done
  next =>
    obtain ⟨-, rfl⟩ := Prod.mk.inj (Except.ok.inj done)
    exact ⟨.refl, db.groups, rfl⟩
  next =>
    simp only [bind_eq_ok, pure_eq_ok, Prod.mk.injEq] at done
    obtain ⟨groups, -, -, rfl⟩ := done
    exact ⟨.single (.openGroup groups) rfl, groups, rfl⟩

theorem upsertGuard_moves {db after : Database} {group : UUID} {guard : RetryGuard}
    (done : Store.upsertGuard db group = .ok (guard, after)) :
    Moves (· = .prepare) db after ∧
      ∃ guards, after = { db with guards } ∧ guards.get group = some guard := by
  unfold Store.upsertGuard at done
  simp only [bind_eq_ok, demand_eq_ok, pure_eq_ok, Prod.mk.injEq] at done
  obtain ⟨guards, put, rfl, rfl⟩ := done
  refine ⟨?_, guards, rfl, Table.Puts.get_self put⟩
  cases found : db.guards.get group with
  | none =>
    rw [found] at put
    exact .single (.openGuard group _ guards found rfl put) rfl
  | some existing =>
    rw [found] at put
    exact .single (.countGuard group existing
      { existing with equivalentAttempts := existing.equivalentAttempts + 1 }
      guards found rfl put) rfl

theorem insertAttempt_admits {db after : Database} {id windowId groupId : UUID}
    {window : BudgetWindow} {guard : RetryGuard} {limit : Cost} (formed : db.WellFormed)
    (unclaimed : db.claimFor req.claimKey = none)
    (policy : Store.admissionPolicy req = .ok (window.policyRef, limit))
    (inWindow : db.windows.get windowId = some window)
    (room : window.exceeded (db.activeDebt windowId) req.maximum limit = false)
    (inGuard : db.guards.get groupId = some guard) (unblocked : guard.blockingAttempts ≤ 0)
    (done : Store.insertAttempt db now id windowId groupId req = .ok after) :
    ∃ rows, Admits id req rows db after := by
  unfold Store.insertAttempt at done
  simp only [bind_eq_ok, demand_eq_ok, ensure_eq_ok, exists_const, pure_eq_ok] at done
  obtain ⟨registered, attempts, attempt, claims, claim, contexts, context, reservations,
    reservation, windows, charged, rfl⟩ := done
  obtain ⟨fresh, attemptPut⟩ := Table.insert?_eq_some.mp attempt
  have absent : db.Absent id := by
    rcases formed.governed id with ⟨rows, held, -⟩ | absent
    · cases fresh.symm.trans held.attempt
    · exact absent
  have contextPut := (Table.insert?_eq_some.mp context).2
  have reservationPut := (Table.insert?_eq_some.mp reservation).2
  have claimPut := (Table.insert?_eq_some.mp claim).2
  have windowPut := Table.updateAny_of_get inWindow charged
  refine ⟨{ attempt := req.newAttempt now, context := ⟨windowId, groupId, req.owner⟩
            reservation := req.newReservation windowId, claim := req.newClaim
            window := window.reserve req.maximum, guard := guard, debt := none }, ?_⟩
  exact ⟨⟨now, rfl⟩, rfl, rfl, rfl, ⟨window, limit, rfl, inWindow, policy, room⟩, registered,
    unclaimed, absent, inGuard, unblocked, attemptPut, contextPut, reservationPut, claimPut,
    windowPut, rfl, rfl, rfl, rfl, rfl, rfl, rfl, rfl, .of_eq rfl⟩

/-- A successful admission replays a stored claim and writes nothing, or prepares its
window, group and guard and admits one attempt. -/
theorem reserveOnce_cases {db after : Database} {fresh : Generated} {decision : AdmissionDecision}
    (formed : db.WellFormed) (done : Store.reserveOnce db now fresh req = .ok (decision, after)) :
    (decision.replay = true ∧ after = db) ∨
      (decision.replay = false ∧ (decision.lockVersion = 0 ∧
        decision.attemptId = Store.AdmissionRequest.attemptIdOr req fresh.attemptId) ∧
        ∃ middle rows, Moves (· = .prepare) db middle ∧
          Admits decision.attemptId req rows middle after) := by
  unfold Store.reserveOnce at done
  simp only [bind_eq_ok, Prod.exists] at done
  obtain ⟨policyRef, limit, policy, done⟩ := done
  split at done
  next =>
    left
    unfold Store.replayClaim at done
    simp only [bind_eq_ok, ensure_eq_ok, exists_const, pure_eq_ok, Prod.mk.injEq] at done
    obtain ⟨-, -, -, -, rfl, rfl⟩ := done
    exact ⟨rfl, rfl⟩
  next unclaimed =>
    right
    unfold Store.admitNew at done
    simp only [bind_eq_ok, Prod.exists, demand_eq_ok, ensure_eq_ok, exists_const, pure_eq_ok,
      Prod.mk.injEq] at done
    obtain ⟨windowId, opened, upserted, window, inWindow, -, room, groupId, grouped, joined,
      guard, counted, guarded, unblocked, -, final, inserted, rfl, rfl⟩ := done
    obtain ⟨openMoves, ⟨windows, rfl⟩, stored, found, samePolicy⟩ := upsertWindow_moves upserted
    obtain rfl := Option.some.inj (found.symm.trans inWindow)
    obtain ⟨groupMoves, groups, rfl⟩ := upsertGroup_moves joined
    obtain ⟨guardMoves, guards, rfl, inGuard⟩ := upsertGuard_moves guarded
    have moves := (openMoves.trans groupMoves).trans guardMoves
    subst samePolicy
    obtain ⟨rows, admits⟩ := insertAttempt_admits (moves.wellFormed formed) unclaimed policy
      inWindow room inGuard unblocked inserted
    exact ⟨rfl, ⟨rfl, rfl⟩, _, rows, moves, admits⟩

end OufMcp.Ledger
