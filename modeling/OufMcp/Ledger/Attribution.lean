import OufMcp.Ledger.RetentionRuns

/-!
# Attribution of evidence

A piece of owner evidence names a budget window, an owner and a backend request.
They are those of the attempt it is stored for, in every state of the store, since
an attempt's context is never rewritten and its backend request only set once.  So
`LateCompensate` has no binding to reject.
-/

namespace OufMcp.Ledger

open Relational Transition

/-- The window, owner and backend request of the evidence are those of its attempt. -/
structure Database.Attributes (db : Database) (row : InboxEvidence) : Prop where
  admitted : ∃ context, db.contexts.get row.attemptId = some context ∧
    context.budgetWindowId = row.budgetWindowId ∧ context.owner = row.backendOwner
  dispatched : ∃ attempt, db.attempts.get row.attemptId = some attempt ∧
    attempt.backendRequestId = some row.backendRequestId

theorem Database.WellFormed.attributes {db : Database} (formed : db.WellFormed) {ref : UUID}
    {row : InboxEvidence} (found : db.evidence.get ref = some row) : db.Attributes row := by
  obtain ⟨rows, held, bound⟩ := formed.inbox ref row found
  exact ⟨⟨rows.context, held.context, bound.window.symm, bound.owner.symm⟩,
    ⟨rows.attempt, held.attempt, bound.request⟩⟩

theorem Moves.keepsEvidence {allowed : Kind → Prop} {before after : Database}
    (moves : Moves allowed before after) (formed : before.WellFormed) {ref : UUID}
    {row : InboxEvidence} (found : before.evidence.get ref = some row) :
    ∃ later, after.evidence.get ref = some later ∧ row.Progresses later := by
  refine moves.invariant (P := fun db => ∃ later, db.evidence.get ref = some later ∧
    row.Progresses later) formed ⟨row, found, .refl row⟩ ?_
  rintro kind a b - - move ⟨middle, stored, first⟩
  obtain ⟨later, still, second⟩ := move.keepsEvidence stored
  exact ⟨later, still, first.trans second⟩

/-- What `LateCompensate` rejects: nothing for its binding, and for its scope only evidence of
another attempt. -/
theorem lateCompensate_rejects {seen db after : Database} {stamp : Time} {id ref : UUID}
    {expectedRevision : Int} {result : CompensationResult} (formed : db.WellFormed)
    (done : Store.lateCompensate seen db stamp id ref expectedRevision = .ok (result, after)) :
    result.disposition ≠ .rejectedBinding ∧
      (result.disposition = .rejectedScope →
        ∃ row, db.evidence.get ref = some row ∧ row.attemptId ≠ id) := by
  unfold Store.lateCompensate at done
  simp only [bind_eq_ok, demand_eq_ok] at done
  obtain ⟨preliminary, -, done⟩ := done
  split at done
  next =>
    simp only [bind_eq_ok, pure_eq_ok, Prod.mk.injEq] at done
    obtain ⟨attempt, -, rfl, -⟩ := done
    by_cases quarantined : preliminary.evidenceState = .quarantined <;>
      simp [Store.report, quarantined]
  next =>
    unfold Store.lateCompensateLocked at done
    simp only [bind_eq_ok, demand_eq_ok, ensure_eq_ok, exists_const] at done
    obtain ⟨context, inContext, window, -, attempt, found, backendRequestId, request, -,
      reservation, -, debt, -, -, evidence, inbox, done⟩ := done
    split at done
    next =>
      obtain ⟨rfl, -⟩ := Prod.mk.inj (pure_eq_ok.mp done)
      simp [Store.report]
    next =>
      split at done
      next =>
        obtain ⟨rfl, -⟩ := Prod.mk.inj (pure_eq_ok.mp done)
        simp [Store.report]
      next =>
        split at done
        next other =>
          simp only [bind_eq_ok, pure_eq_ok, Prod.mk.injEq] at done
          obtain ⟨final, -, rfl, -⟩ := done
          exact ⟨by simp [Store.report], fun _ => ⟨evidence, inbox, other⟩⟩
        next mine =>
          simp only [ne_eq, Decidable.not_not] at mine
          subst mine
          obtain ⟨⟨own, stored, scope, owner⟩, ⟨sent, there, same⟩⟩ := formed.attributes inbox
          obtain rfl := Option.some.inj (stored.symm.trans inContext)
          obtain rfl := Option.some.inj (there.symm.trans found)
          split at done
          next mismatch =>
            exfalso
            rcases mismatch with elsewhere | foreign | different
            · exact elsewhere scope.symm
            · exact foreign owner.symm
            · exact different (Option.some.inj (same.symm.trans request))
          next =>
            split at done
            next violation violated =>
              unfold Store.commitViolation at done
              simp only [bind_eq_ok, pure_eq_ok, Prod.mk.injEq] at done
              obtain ⟨middle, -, final, -, rfl, -⟩ := done
              simp
            next =>
              unfold Store.compensate at done
              simp only [bind_eq_ok, pure_eq_ok, Prod.exists, Prod.mk.injEq, demand_eq_ok] at done
              obtain ⟨inserted, objects, -, debts, -, windows, -, guards, -, middle, -,
                adjustments, -, final, -, consumed, -, rfl, -⟩ := done
              simp

/-- Evidence is always of the window, owner and backend request of its attempt, no operation
and no purge changes any of the three, and `LateCompensate` never rejects it for its binding. -/
theorem evidence_attribution_stable {state : StoreState}
    (reached : retention.Reachable RetentionEvent.Fresh state) :
    (∀ ref row, state.db.evidence.get ref = some row → state.db.Attributes row) ∧
    (∀ operation db, state.perform operation = some db →
      ∀ ref row, state.db.evidence.get ref = some row →
        ∃ later, db.evidence.get ref = some later ∧ row.SameScope later ∧ db.Attributes later) ∧
    (∀ event db, RetentionEvent.perform state event = some db →
      (∃ operation, event = .operation operation) ∨
        ∀ ref row, db.evidence.get ref = some row →
          state.db.evidence.get ref = some row ∧ db.Attributes row) ∧
    ∀ seen ∈ state.db :: state.past, ∀ stamp id ref expectedRevision result after,
      Store.lateCompensate seen state.db stamp id ref expectedRevision = .ok (result, after) →
      result.disposition ≠ .rejectedBinding ∧
        (result.disposition = .rejectedScope →
          ∃ row, state.db.evidence.get ref = some row ∧ row.attemptId ≠ id) := by
  have retained := retention_retained reached
  have formed := retained.sound.formed
  refine ⟨fun ref row found => formed.attributes found, ?_, ?_, ?_⟩
  · intro operation db performed ref row found
    have moves := perform_moves retained.sound performed
    obtain ⟨later, stored, progress⟩ := moves.keepsEvidence formed found
    exact ⟨later, stored, progress.sameScope, (moves.wellFormed formed).attributes stored⟩
  · intro event db performed
    refine (retained.perform_cases performed).imp_right ?_
    rintro ⟨gone, drops, -⟩ ref row found
    exact ⟨(drops.evidence ref row found).1, (drops.wellFormed formed).attributes found⟩
  · intro seen _ stamp id ref expectedRevision result after done
    exact lateCompensate_rejects formed done

def reportedSearch : List RetentionEvent :=
  [.operation (.reserve 0 ⟨10, 11, 0⟩ ((searchCall "first" "one" 5).admission 1)),
    .operation (.dispatch 0 1 "request" second 0),
    .operation (.insertVerifiedEvidence ⟨7, "udp", "request", "OWNER_RESULT", "SUCCEEDED", "OK",
      "result", 1, some [], sampleChecksum⟩)]

theorem evidence_attribution_stable_reportedSearch :
    ∃ state row, retention.Reachable RetentionEvent.Fresh state ∧
      state.db.evidence.get 7 = some row ∧ row.attemptId = 1 ∧ state.db.Attributes row := by
  have sound : ∀ event ∈ reportedSearch, ∀ state : StoreState,
      (state.past.isEmpty || (state.db.attempts.get 1).isSome) = true →
      RetentionEvent.Fresh state event := by
    intro event member state early
    rcases List.mem_cons.mp member with rfl | later
    · exact RetentionEvent.fresh_of_unpurged early
    · rcases List.mem_cons.mp later with rfl | last
      · trivial
      · rw [List.mem_singleton.mp last]
        trivial
  obtain ⟨state, -, reached, checked⟩ := System.exists_reachable sound sampleStore_initial
    (show (retention.replay _ _ reportedSearch).any (fun state =>
      (state.db.evidence.get 7).any fun row : InboxEvidence => decide (row.attemptId = 1)) = true
      by decide +kernel)
  obtain ⟨row, found, mine⟩ := (Option.any_eq_true _ _).mp checked
  obtain ⟨attributed, -⟩ := evidence_attribution_stable reached
  exact ⟨state, row, reached, found, of_decide_eq_true mine, attributed 7 row found⟩

end OufMcp.Ledger
