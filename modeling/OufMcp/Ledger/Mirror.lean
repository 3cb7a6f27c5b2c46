import Mathlib.Data.List.Forall2
import OufMcp.Ledger.Journal

/-!
# The journal mirrors uncertainty

The state changes of an attempt are read off the databases a run commits.  The
journal of the attempt has one row for each change into or out of uncertainty, in
the order of the changes; its revisions grow, and its last row says whether the
attempt is uncertain now.
-/

namespace OufMcp.Ledger

open Relational Transition

/-- The state change of an attempt that a step committed, with the row before it. -/
def stateChange (id : UUID) (entry : StoreState × Operation) :
    Option (Option ToolAttempt × ToolAttempt) :=
  ((entry.1.step entry.2).db.attempts.get id).bind fun new =>
    if (entry.1.db.attempts.get id).map (·.state) = some new.state then none
    else some (entry.1.db.attempts.get id, new)

def stateChanges (id : UUID) (record : List (StoreState × Operation)) :
    List (Option ToolAttempt × ToolAttempt) :=
  (record.filterMap (stateChange id)).reverse

def concernsUncertainty (change : Option ToolAttempt × ToolAttempt) : Bool :=
  change.1.any (·.state.uncertain) || change.2.state.uncertain

theorem stateChanges_cons (id : UUID) (entry : StoreState × Operation)
    (record : List (StoreState × Operation)) :
    stateChanges id (entry :: record) =
      stateChanges id record ++ (stateChange id entry).toList := by
  unfold stateChanges
  rw [List.filterMap_cons]
  cases stateChange id entry with
  | none => simp
  | some change => simp

/-- The row of a state change, as the trigger writes it. -/
def Records (id : UUID) (change : Option ToolAttempt × ToolAttempt) (row : AuditEvent) : Prop :=
  captureOperationalAttemptAudit id change.1 change.2 = [row]

def Precedes (first second : AuditEvent) : Prop :=
  ∃ m n, first.ownerRevision = some m ∧ second.ownerRevision = some n ∧ m < n

def lastLifecycle (rows : List AuditEvent) : Option String :=
  rows.getLast?.bind (·.lifecycleState)

/-- An attempt is as uncertain as the last row says. -/
structure Agrees (state : AttemptState) (last : Option String) : Prop where
  unknown : state = .unknown ↔ last = some "RECOVERING"
  unresolved : state = .unresolved ↔ last = some "OPEN"
  certain : state.uncertain = false ↔ last = none ∨ last = some "RESOLVED"

theorem agrees_lifecycle (state : AttemptState) : Agrees state (some state.lifecycle) := by
  cases state <;> constructor <;> simp [AttemptState.lifecycle, AttemptState.uncertain]

theorem Agrees.of_certain {old new : AttemptState} {last : Option String} (agrees : Agrees old last)
    (was : old.uncertain = false) (is : new.uncertain = false) : Agrees new last := by
  have quiet := agrees.certain.mp was
  constructor
  · constructor
    · rintro rfl
      cases is
    · intro impossible
      rcases quiet with none | resolved
      · cases none.symm.trans impossible
      · exact absurd (Option.some.inj (resolved.symm.trans impossible)) (by decide)
  · constructor
    · rintro rfl
      cases is
    · intro impossible
      rcases quiet with none | resolved
      · cases none.symm.trans impossible
      · exact absurd (Option.some.inj (resolved.symm.trans impossible)) (by decide)
  · exact ⟨fun _ => quiet, fun _ => is⟩

/-- What the journal of one attempt says about the run so far. -/
structure Mirrors (id : UUID) (run : System.Recorded StoreState Operation) : Prop where
  rows : List.Forall₂ (Records id) ((stateChanges id run.record).filter concernsUncertainty)
    (journal id run.state.db.audit)
  ordered : (journal id run.state.db.audit).Pairwise Precedes
  bounded : ∀ row ∈ journal id run.state.db.audit, ∃ revision attempt,
    row.ownerRevision = some revision ∧ run.state.db.attempts.get id = some attempt ∧
      revision ≤ attempt.lockVersion
  agrees : ∀ attempt, run.state.db.attempts.get id = some attempt →
    Agrees attempt.state (lastLifecycle (journal id run.state.db.audit))

theorem Mirrors.initial (id : UUID) (manifests : List String) :
    Mirrors id ⟨.initial manifests, []⟩ where
  rows := .nil
  ordered := .nil
  bounded row member := by cases member
  agrees attempt found := by cases found

section Steps

variable {id : UUID} {run : System.Recorded StoreState Operation} {operation : Operation}

/-- A step that writes no row of the attempt and changes nothing that a row would be for. -/
theorem Mirrors.silent (mirrors : Mirrors id run)
    (quiet : ∀ change ∈ stateChange id (run.state, operation), concernsUncertainty change = false)
    (silent : journal id (run.state.step operation).db.audit = journal id run.state.db.audit)
    (grown : ∀ old, run.state.db.attempts.get id = some old → ∃ new,
      (run.state.step operation).db.attempts.get id = some new ∧ old.lockVersion ≤ new.lockVersion)
    (agrees : ∀ new, (run.state.step operation).db.attempts.get id = some new →
      Agrees new.state (lastLifecycle (journal id run.state.db.audit))) :
    Mirrors id ⟨run.state.step operation, (run.state, operation) :: run.record⟩ := by
  refine ⟨?_, ?_, ?_, ?_⟩
  · have none : (stateChange id (run.state, operation)).toList.filter concernsUncertainty = [] := by
      refine List.filter_eq_nil_iff.mpr fun change member => ?_
      rw [quiet change (Option.mem_toList.mp member)]
      exact Bool.false_ne_true
    rw [silent, stateChanges_cons, List.filter_append, none, List.append_nil]
    exact mirrors.rows
  · rw [silent]
    exact mirrors.ordered
  · rw [silent]
    intro row member
    obtain ⟨revision, attempt, shown, stored, bound⟩ := mirrors.bounded row member
    obtain ⟨new, found, later⟩ := grown attempt stored
    exact ⟨revision, new, shown, found, bound.trans later⟩
  · rw [silent]
    exact agrees

theorem Mirrors.journal_of_absent (mirrors : Mirrors id run)
    (absent : run.state.db.attempts.get id = none) : journal id run.state.db.audit = [] := by
  refine List.eq_nil_iff_forall_not_mem.mpr fun row member => ?_
  obtain ⟨-, attempt, -, stored, -⟩ := mirrors.bounded row member
  cases absent.symm.trans stored

/-- A step that writes the row of a change. -/
theorem Mirrors.written (mirrors : Mirrors id run) {old : Option ToolAttempt} {new : ToolAttempt}
    {row : AuditEvent} (change : stateChange id (run.state, operation) = some (old, new))
    (concerns : concernsUncertainty (old, new) = true) (records : Records id (old, new) row)
    (written : journal id (run.state.step operation).db.audit =
      journal id run.state.db.audit ++ [row])
    (lifecycle : row.lifecycleState = some new.state.lifecycle)
    (revision : row.ownerRevision = some new.lockVersion)
    (newer : ∀ attempt, run.state.db.attempts.get id = some attempt →
      attempt.lockVersion < new.lockVersion)
    (is : (run.state.step operation).db.attempts.get id = some new) :
    Mirrors id ⟨run.state.step operation, (run.state, operation) :: run.record⟩ := by
  have older : ∀ row ∈ journal id run.state.db.audit,
      ∃ revision, row.ownerRevision = some revision ∧ revision < new.lockVersion := by
    intro row member
    obtain ⟨revision, attempt, shown, stored, bound⟩ := mirrors.bounded row member
    exact ⟨revision, shown, bound.trans_lt (newer attempt stored)⟩
  refine ⟨?_, ?_, ?_, ?_⟩
  · rw [stateChanges_cons, change, Option.toList_some, written, List.filter_append,
      List.filter_singleton, concerns]
    exact List.rel_append mirrors.rows (.cons records .nil)
  · rw [written]
    refine List.pairwise_append.mpr ⟨mirrors.ordered, List.pairwise_singleton _ _, ?_⟩
    intro earlier member later last
    obtain ⟨version, shown, before⟩ := older earlier member
    rw [List.mem_singleton.mp last]
    exact ⟨version, new.lockVersion, shown, revision, before⟩
  · rw [written]
    intro earlier member
    rcases List.mem_append.mp member with was | last
    · obtain ⟨version, shown, before⟩ := older earlier was
      exact ⟨version, new, shown, is, before.le⟩
    · rw [List.mem_singleton.mp last]
      exact ⟨new.lockVersion, new, revision, is, le_refl _⟩
  · intro attempt found
    obtain rfl := Option.some.inj (is.symm.trans found)
    rw [written]
    unfold lastLifecycle
    rw [List.getLast?_concat, Option.bind_some, lifecycle]
    exact agrees_lifecycle new.state

theorem Mirrors.step (mirrors : Mirrors id run) (valid : run.state.Valid)
    (ordinary : operation.ordinary = true) :
    Mirrors id ⟨run.state.step operation, (run.state, operation) :: run.record⟩ := by
  cases operation_logs valid ordinary id with
  | absent was is silent =>
    refine mirrors.silent ?_ silent (by simp [was]) (by simp [is])
    simp [stateChange, is]
  | @kept old new was is still silent =>
    refine mirrors.silent ?_ silent ?_ ?_
    · simp [stateChange, is, was, still.1]
    · intro attempt stored
      obtain rfl := Option.some.inj (was.symm.trans stored)
      exact ⟨new, is, still.2⟩
    · intro attempt found
      obtain rfl := Option.some.inj (is.symm.trans found)
      rw [still.1]
      exact mirrors.agrees old was
  | @changed old new was is legal differ newer written =>
    have change : stateChange id (run.state, operation) = some (old, new) := by
      unfold stateChange
      rw [is, was, Option.bind_some, if_neg differ]
    have newer : ∀ attempt, run.state.db.attempts.get id = some attempt →
        attempt.lockVersion < new.lockVersion :=
      fun attempt stored => newer attempt (was.symm.trans stored)
    rcases capture_cases legal differ with
      ⟨uncertain, row, captured, lifecycle, revision⟩ | ⟨certain, settled, captured⟩
    · have concerns : concernsUncertainty (old, new) = true := by
        unfold concernsUncertainty
        rwa [Bool.or_eq_true]
      rw [captured] at written
      exact mirrors.written change concerns captured written lifecycle revision newer is
    · rw [captured, List.append_nil] at written
      refine mirrors.silent ?_ written
        (fun attempt stored => ⟨new, is, (newer attempt stored).le⟩) ?_
      · rw [change]
        rintro _ ⟨⟩
        unfold concernsUncertainty
        rw [certain, settled]
        rfl
      · intro attempt found
        obtain rfl := Option.some.inj (is.symm.trans found)
        cases old with
        | none =>
          -- A new attempt has no row yet.
          rw [mirrors.journal_of_absent was, legal.1 rfl]
          constructor <;> simp [lastLifecycle, AttemptState.uncertain]
        | some previous =>
          exact (mirrors.agrees previous was).of_certain certain settled

end Steps

/-- The journal of an attempt has one row for each committed state change from or to
`UNKNOWN` or `UNRESOLVED`, in their order, and no other row; the revisions of its rows
grow; the last row says whether the attempt is uncertain; and an operation that is
rolled back leaves no row. -/
theorem journal_mirrors_uncertainty {run : System.Recorded StoreState Operation}
    (reached : store.recorded.Reachable
      (System.onState fun _ operation => operation.ordinary = true) run) (id : UUID) :
    List.Forall₂ (Records id) ((stateChanges id run.record).filter concernsUncertainty)
      (journal id run.state.db.audit) ∧
    (journal id run.state.db.audit).Pairwise Precedes ∧
    (∀ attempt, run.state.db.attempts.get id = some attempt →
      Agrees attempt.state (lastLifecycle (journal id run.state.db.audit))) ∧
    (run.state.db.attempts.get id = none → journal id run.state.db.audit = []) ∧
    ∀ operation, run.state.perform operation = none →
      (run.state.step operation).db.audit = run.state.db.audit := by
  have mirrors : Mirrors id run := by
    refine reached.induction ?_ ?_
    · rintro ⟨state, record⟩ ⟨⟨manifests, -, rfl⟩, rfl⟩
      exact .initial id manifests
    · rintro before operation after reachable mirrors ordinary stepped
      cases stepped
      exact mirrors.step (store_valid reachable.of_recorded) ordinary
  refine ⟨mirrors.rows, mirrors.ordered, mirrors.agrees, ?_, ?_⟩
  · exact mirrors.journal_of_absent
  · intro operation failed
    unfold StoreState.step
    rw [failed]

def heldTooLong : List Operation := lostSearch ++ [.expireUnknown 99 (20 * second) (15 * second) 5]

theorem journal_mirrors_uncertainty_heldTooLong :
    ∃ run attempt, store.recorded.Reachable
        (System.onState fun _ operation => operation.ordinary = true) run ∧
      run.state.db.attempts.get 1 = some attempt ∧ attempt.state = .unresolved ∧
      (journal 1 run.state.db.audit).length = 2 ∧
      lastLifecycle (journal 1 run.state.db.audit) = some "OPEN" := by
  have ordinary : ∀ event ∈ heldTooLong, event.ordinary = true := by decide
  have sound : ∀ event ∈ heldTooLong, ∀ run : System.Recorded StoreState Operation,
      true = true → System.onState (fun _ operation => operation.ordinary = true) run event :=
    fun event member _ _ => ordinary event member
  obtain ⟨run, -, reached, checked⟩ := System.exists_reachable sound
    (show store.recorded.initial ⟨.initial [sampleChecksum], []⟩ from ⟨sampleStore_initial, rfl⟩)
    (show (store.recorded.replay (fun _ _ => true) _ _).any (fun run =>
      (run.state.db.attempts.get 1).any fun attempt : ToolAttempt =>
        decide (attempt.state = .unresolved ∧ (journal 1 run.state.db.audit).length = 2)) = true by
      decide +kernel)
  obtain ⟨attempt, found, values⟩ := (Option.any_eq_true _ _).mp checked
  obtain ⟨unresolved, two⟩ := of_decide_eq_true values
  obtain ⟨-, -, agrees, -⟩ := journal_mirrors_uncertainty reached 1
  exact ⟨run, attempt, reached, found, unresolved, two,
    (agrees attempt found).unresolved.mp unresolved⟩

end OufMcp.Ledger
