import OufMcp.Ledger.Retry

/-!
# Stalls

A stalled admission marks its guard and then reports an error, and the error rolls
the mark back, so no stall is ever marked.  What refuses later admissions is the
count alone, and they are refused as long as none carries a larger threshold.
-/

namespace OufMcp.Ledger

open Relational Transition

def Operation.asks : Operation → Option (RetryScope × AdmissionRequest)
  | .reserve now _ req =>
    (Store.admissionPolicy req).toOption.map fun policy => (req.scope policy.1 now, req)
  | _ => none

/-- The request a step of a run refused with `ErrToolSelectionStall`, and its scope. -/
def stalled (entry : StoreState × Operation) : Option (RetryScope × AdmissionRequest) :=
  match entry.2 with
  | .reserve now fresh req =>
    if errorOf (Store.reserveOnce entry.1.db now fresh req) = some .toolSelectionStall then
      (Operation.reserve now fresh req).asks
    else none
  | _ => none

def Database.Marked (db : Database) (scope : RetryScope) : Prop :=
  ∃ id guard, db.scope id = some scope ∧ db.guards.get id = some guard ∧ guard.blocked = true

/-- Every stall of the run is marked, and nothing was admitted in its scope after it. -/
def Sticky (run : System.Recorded StoreState Operation) : Prop :=
  ∀ later entry earlier scope req, run.record = later ++ entry :: earlier →
    stalled entry = some (scope, req) →
      run.state.db.Marked scope ∧ ∀ next ∈ later, admittedIn scope next = none

/-- No request asks for more than one of its scope that stalled before. -/
def Modest (run : System.Recorded StoreState Operation) (operation : Operation) : Prop :=
  ∀ entry ∈ run.record, ∀ refused ∈ stalled entry, ∀ asked ∈ operation.asks,
    asked.1 = refused.1 → asked.2.retryThreshold ≤ refused.2.retryThreshold

instance (run : System.Recorded StoreState Operation) (operation : Operation) :
    Decidable (Modest run operation) :=
  inferInstanceAs (Decidable (∀ entry ∈ run.record, ∀ refused ∈ stalled entry,
    ∀ asked ∈ operation.asks, asked.1 = refused.1 →
      asked.2.retryThreshold ≤ refused.2.retryThreshold))

theorem asks_of_admittedIn {state : StoreState} {operation : Operation} {scope : RetryScope}
    {req : AdmissionRequest} (admitted : admittedIn scope (state, operation) = some req) :
    operation.asks = some (scope, req) := by
  cases operation with
  | reserve now fresh asked =>
    simp only [admittedIn] at admitted
    split at admitted
    next policyRef limit decision after policy done =>
      split at admitted
      next meets =>
        obtain rfl := Option.some.inj admitted
        obtain ⟨-, rfl⟩ := meets
        simp only [Operation.asks, policy]
        rfl
      next => cases admitted
    next => cases admitted
  | _ => cases admitted

theorem stalled_reached {state : StoreState} {operation : Operation} {scope : RetryScope}
    {req : AdmissionRequest} {count : Int} (tallied : state.db.Tallied)
    (refused : stalled (state, operation) = some (scope, req))
    (counts : state.db.Counts scope count) : req.retryThreshold ≤ count + 1 := by
  cases operation with
  | reserve now fresh asked =>
    simp only [stalled, Operation.asks] at refused
    split at refused
    next failed =>
      obtain ⟨policy, accepted, same⟩ := Option.map_eq_some_iff.mp refused
      obtain ⟨rfl, rfl⟩ := Prod.mk.inj same
      have error : Store.reserveOnce state.db now fresh asked = .error .toolSelectionStall := by
        cases outcome : Store.reserveOnce state.db now fresh asked with
        | error error =>
          rw [outcome] at failed
          rw [Option.some.inj failed]
        | ok result =>
          rw [outcome] at failed
          cases failed
      obtain ⟨group, guard, middle, prepares, marked | reached⟩ :=
        reserveOnce_stalls tallied (toOption_eq_some.mp accepted) error
      · -- No guard is marked in the database.
        rw [prepares.marked] at marked
        cases found : state.db.guards.get group with
        | none =>
          rw [found] at marked
          cases marked
        | some old =>
          rw [found, Option.elim_some, tallied.unblocked group old found] at marked
          cases marked
      · have was := tallied.retries_of_counts prepares.kept prepares.placed counts
        rw [prepares.counted, was] at reached
        exact reached
    next => cases refused
  | _ => cases refused

/-- What a run with modest requests keeps: a stall is not undone by a later count, and
nothing is admitted after it. -/
structure Sticks (run : System.Recorded StoreState Operation) : Prop where
  reached : ∀ entry ∈ run.record, ∀ scope req, stalled entry = some (scope, req) →
    req.retryThreshold ≤ (admissions scope run.record).length + 1
  refused : ∀ later entry earlier scope req, run.record = later ++ entry :: earlier →
    stalled entry = some (scope, req) → ∀ next ∈ later, admittedIn scope next = none

theorem Sticks.step {run : System.Recorded StoreState Operation} (sticks : Sticks run)
    (accounts : Accounts run) (valid : run.state.Valid) {operation : Operation}
    (modest : Modest run operation) :
    Sticks ⟨run.state.step operation, (run.state, operation) :: run.record⟩ := by
  have grows : ∀ scope, ((admissions scope run.record).length : Int) ≤
      (admissions scope ((run.state, operation) :: run.record)).length := by
    intro scope
    rw [admissions_cons, List.length_append]
    omega
  constructor
  · intro entry member scope req found
    rcases List.mem_cons.mp member with rfl | earlier
    · have reached := stalled_reached accounts.tallied found (accounts.counts scope)
      have more := grows scope
      simp only
      omega
    · have reached := sticks.reached entry earlier scope req found
      have more := grows scope
      simp only
      omega
  · intro later entry earlier scope req split found next member
    cases later with
    | nil => cases member
    | cons head rest =>
      obtain ⟨rfl, tail⟩ := List.cons.inj split
      rcases List.mem_cons.mp member with rfl | inner
      · -- The step just taken: its count is already at the stalled threshold.
        cases admitted : admittedIn scope (run.state, operation) with
        | none => rfl
        | some asked =>
          have within : entry ∈ run.record := tail ▸ List.mem_append_right _ List.mem_cons_self
          have bounded := modest entry within _ found _ (asks_of_admittedIn admitted) rfl
          have reached := sticks.reached entry within scope req found
          have later := accounts.step valid operation
          have last : (admissions scope ((run.state, operation) :: run.record))[
              (admissions scope run.record).length]? = some asked := by
            rw [admissions_cons, admitted]
            simp
          have below := later.below scope _ asked last
          simp only at bounded
          omega
      · exact sticks.refused rest entry earlier scope req tail found next inner

theorem sticks_of_modest {run : System.Recorded StoreState Operation}
    (reached : store.recorded.Reachable Modest run) : Sticks run := by
  refine reached.induction ?_ ?_
  · rintro ⟨state, record⟩ ⟨-, rfl⟩
    constructor
    · intro entry member
      cases member
    · intro later entry earlier scope req split
      cases later <;> cases split
  · rintro before operation after reachable sticks modest stepped
    cases stepped
    obtain ⟨valid, accounts⟩ := accounts_reachable reachable
    exact sticks.step accounts valid modest

/-- No run ever stores the mark that a stall sets, so a run is sticky exactly when nothing
stalled in it.  Its other half holds longer: where the requests ask for no more than the
stalled ones of their scope, nothing is admitted in a scope after a stall. -/
theorem stall_sticks {run : System.Recorded StoreState Operation}
    (reached : store.recorded.Reachable System.always run) :
    (∀ id guard, run.state.db.guards.get id = some guard → guard.blocked = false) ∧
    (Sticky run ↔ ∀ entry ∈ run.record, stalled entry = none) ∧
    (store.recorded.Reachable Modest run → ∀ later entry earlier scope req,
      run.record = later ++ entry :: earlier → stalled entry = some (scope, req) →
        ∀ next ∈ later, admittedIn scope next = none) := by
  have unblocked := (accounts_reachable reached).2.tallied.unblocked
  refine ⟨unblocked, ⟨fun sticky entry member => ?_, fun calm => ?_⟩,
    fun modest => (sticks_of_modest modest).refused⟩
  · cases refused : stalled entry with
    | none => rfl
    | some asked =>
      obtain ⟨later, earlier, split⟩ := List.append_of_mem member
      obtain ⟨⟨id, guard, -, found, marked⟩, -⟩ :=
        sticky later entry earlier asked.1 asked.2 split refused
      rw [unblocked id guard found] at marked
      cases marked
  · intro later entry earlier scope req split refused
    have none := calm entry (split ▸ List.mem_append_right _ List.mem_cons_self)
    rw [none] at refused
    cases refused

theorem stall_sticks_threeSearches :
    ∃ run, store.recorded.Reachable Modest run ∧ ¬ Sticky run ∧
      ∃ next entry earlier req, run.record = [next] ++ entry :: earlier ∧
        stalled entry = some (searchScope, req) ∧ admittedIn searchScope next = none := by
  have sound : ∀ event ∈ threeSearches ++ [.reserve 0 ⟨40, 41, 0⟩ (searchRequest "fourth" 4 3)],
      ∀ run : System.Recorded StoreState Operation,
        decide (Modest run event) = true → Modest run event :=
    fun _ _ _ passed => of_decide_eq_true passed
  obtain ⟨run, -, reached, checked⟩ := System.exists_reachable sound
    (show store.recorded.initial ⟨.initial [sampleChecksum], []⟩ from ⟨sampleStore_initial, rfl⟩)
    (show (store.recorded.replay _ _ _).any (fun run => run.record.tail.head?.any fun entry =>
        decide (stalled entry = some (searchScope, searchRequest "third" 3 3))) = true by
      decide +kernel)
  obtain ⟨-, sticky, refused⟩ := stall_sticks (reached.mono fun _ _ _ => trivial)
  rcases shape : run.record with _ | ⟨next, _ | ⟨entry, earlier⟩⟩
  · rw [shape] at checked
    cases checked
  · rw [shape] at checked
    cases checked
  · rw [shape] at checked
    have stall := of_decide_eq_true checked
    refine ⟨run, reached, fun stuck => ?_, next, entry, earlier, _, shape, stall,
      refused reached [next] entry earlier searchScope _ shape stall next List.mem_cons_self⟩
    have calm := sticky.mp stuck entry (shape ▸ List.mem_cons_of_mem _ List.mem_cons_self)
    cases stall.symm.trans calm

/-- A search stalls, leaves no mark, and one with a larger threshold is then admitted. -/
theorem stall_not_sticky :
    let admitted := (StoreState.initial [sampleChecksum]).step
      (.reserve 0 ⟨10, 11, 0⟩ (searchRequest "first" 1 2))
    let after := admitted.step (.reserve 0 ⟨20, 21, 0⟩ (searchRequest "second" 2 2))
    store.Reachable System.always after ∧
      errorOf (Store.reserveOnce admitted.db 0 ⟨20, 21, 0⟩ (searchRequest "second" 2 2)) =
        some .toolSelectionStall ∧
      after.db.guards.get 11 = some ⟨1, false, 0⟩ ∧
      (Store.reserveOnce after.db 0 ⟨30, 31, 0⟩ (searchRequest "third" 3 3)).toOption.map (·.1) =
        some ⟨3, 0, false⟩ := by
  refine ⟨?_, by decide +kernel, by decide +kernel, by decide +kernel⟩
  exact ((System.Reachable.of_initial sampleStore_initial).step trivial rfl).step trivial rfl

end OufMcp.Ledger
