import OufMcp.Ledger.Groups

/-!
# Equivalent retries

The guard of a group counts the attempts that a run has admitted in it.  An
admission is refused when the count reaches the threshold it carries, or while an
attempt of the group is uncertain, and a refusal rolls the count back.
-/

namespace OufMcp.Ledger

open Relational Transition

/-! ## Counts -/

/-- The number of attempts the database has counted in a scope. -/
def Database.Counts (db : Database) (scope : RetryScope) (count : Int) : Prop :=
  (∃ id, db.scope id = some scope ∧ db.retries id = count) ∨
    ((∀ id, db.scope id ≠ some scope) ∧ count = 0)

theorem Steady.counts {before after : Database} {scope : RetryScope} {count : Int}
    (steady : Steady before after) (counts : before.Counts scope count) :
    after.Counts scope count := by
  rcases counts with ⟨id, known, counted⟩ | ⟨unknown, zero⟩
  · exact .inl ⟨id, (steady.scope id).trans known, (steady.retries id).trans counted⟩
  · exact .inr ⟨fun id => (steady.scope id).symm ▸ unknown id, zero⟩

/-- The group of a scope holds what was counted in it, also when it has just been created. -/
theorem Database.Tallied.retries_of_counts {before after : Database} {scope : RetryScope}
    {group : UUID} {count : Int} (tallied : before.Tallied)
    (kept : ∀ id found, before.scope id = some found → after.scope id = some found)
    (placed : after.scope group = some scope) (counts : before.Counts scope count) :
    before.retries group = count := by
  rcases counts with ⟨id, known, counted⟩ | ⟨unknown, rfl⟩
  · obtain rfl := Database.scope_injective (kept id scope known) placed
    exact counted
  · unfold Database.retries
    cases found : before.guards.get group with
    | none => rfl
    | some guard =>
      obtain ⟨old, was⟩ := tallied.guarded group guard found
      obtain rfl := Option.some.inj ((kept group old was).symm.trans placed)
      exact absurd was (unknown group)

theorem Joins.counts {scope other : RetryScope} {threshold count : Int} {group : UUID}
    {before after : Database} (joins : Joins scope threshold group before after)
    (tallied : before.Tallied) (counts : before.Counts other count) :
    after.Counts other (count + if other = scope then 1 else 0) := by
  by_cases same : other = scope
  · subst same
    have was := tallied.retries_of_counts joins.kept joins.placed counts
    refine .inl ⟨group, joins.placed, ?_⟩
    rw [joins.retries, was, if_pos rfl, if_pos rfl]
  · rw [if_neg same, add_zero]
    rcases counts with ⟨id, known, counted⟩ | ⟨unknown, zero⟩
    · have there := joins.kept id other known
      have differ : id ≠ group := by
        rintro rfl
        exact same (Option.some.inj (there.symm.trans joins.placed))
      refine .inl ⟨id, there, ?_⟩
      rw [joins.retries, if_neg differ, add_zero]
      exact counted
    · refine .inr ⟨fun id now => ?_, zero⟩
      rcases joins.fresh id other now with rfl | was
      · exact same (Option.some.inj (now.symm.trans joins.placed))
      · exact unknown id was

/-! ## Runs -/

def admittedIn (scope : RetryScope) (entry : StoreState × Operation) : Option AdmissionRequest :=
  match entry.2 with
  | .reserve now fresh req =>
    match Store.admissionPolicy req, Store.reserveOnce entry.1.db now fresh req with
    | .ok (policyRef, _), .ok (decision, _) =>
      if decision.replay = false ∧ req.scope policyRef now = scope then some req else none
    | _, _ => none
  | _ => none

def admissions (scope : RetryScope) (record : List (StoreState × Operation)) :
    List AdmissionRequest :=
  (record.filterMap (admittedIn scope)).reverse

/-- A step admits nothing and joins no group, or admits one request in one scope. -/
theorem step_retries {state : StoreState} (valid : state.Valid) (tallied : state.db.Tallied)
    (operation : Operation) :
    (Steady state.db (state.step operation).db ∧
      ∀ scope, admittedIn scope (state, operation) = none) ∨
    ∃ scope req group, Joins scope req.retryThreshold group state.db (state.step operation).db ∧
      ∀ other, admittedIn other (state, operation) = if scope = other then some req else none := by
  cases operation with
  | reserve now fresh req =>
    cases policy : Store.admissionPolicy req with
    | error error =>
      have failed : Store.reserveOnce state.db now fresh req = .error error := by
        unfold Store.reserveOnce
        rw [policy]
        rfl
      left
      simp only [StoreState.step, StoreState.perform, failed, admittedIn, policy]
      exact ⟨.refl _, fun _ => trivial⟩
    | ok pair =>
      obtain ⟨policyRef, limit⟩ := pair
      cases done : Store.reserveOnce state.db now fresh req with
      | error error =>
        left
        simp only [StoreState.step, StoreState.perform, done, admittedIn, policy]
        exact ⟨.refl _, fun _ => trivial⟩
      | ok result =>
        obtain ⟨decision, after⟩ := result
        simp only [StoreState.step, StoreState.perform, done, admittedIn, policy,
          Except.toOption, Option.map_some]
        rcases reserveOnce_joins tallied policy done with
          ⟨replay, rfl⟩ | ⟨admitted, group, joins⟩
        · left
          refine ⟨.refl _, fun scope => if_neg ?_⟩
          rw [replay]
          simp
        · right
          refine ⟨req.scope policyRef now, req, group, joins, fun other => ?_⟩
          simp only [admitted, true_and]
  | _ =>
    left
    refine ⟨(operation_moves valid _).steady valid.formed ?_, fun _ => rfl⟩
    rintro kind allowed
    constructor <;> rintro rfl <;> simp [Operation.allows, Kind.stale] at allowed

theorem admissions_cons (scope : RetryScope) (entry : StoreState × Operation)
    (record : List (StoreState × Operation)) :
    admissions scope (entry :: record) =
      admissions scope record ++ (admittedIn scope entry).toList := by
  unfold admissions
  rw [List.filterMap_cons]
  cases admittedIn scope entry with
  | none => simp
  | some req => simp

/-- What the guards say about the run so far. -/
structure Accounts (run : System.Recorded StoreState Operation) : Prop where
  tallied : run.state.db.Tallied
  counts : ∀ scope, run.state.db.Counts scope (admissions scope run.record).length
  below : ∀ scope (n : Nat) req, (admissions scope run.record)[n]? = some req →
    (n : Int) + 1 < req.retryThreshold
  unlocked : ∀ entry ∈ run.record, ∀ scope req, admittedIn scope entry = some req →
    ∀ id, entry.1.db.scope id = some scope → entry.1.db.blocking id ≤ 0

theorem Accounts.initial (manifests : List String) : Accounts ⟨.initial manifests, []⟩ where
  tallied := Database.migrated_tallied manifests
  counts scope := by
    refine .inr ⟨?_, rfl⟩
    intro id impossible
    cases impossible
  below scope n req found := by cases found
  unlocked entry member := by cases member

theorem Accounts.step {run : System.Recorded StoreState Operation} (accounts : Accounts run)
    (valid : run.state.Valid) (operation : Operation) :
    Accounts ⟨run.state.step operation, (run.state, operation) :: run.record⟩ := by
  rcases step_retries valid accounts.tallied operation with
    ⟨steady, none⟩ | ⟨scope, req, group, joins, admitted⟩
  · have same : ∀ scope, admissions scope ((run.state, operation) :: run.record) =
        admissions scope run.record := by
      intro scope
      rw [admissions_cons, none, Option.toList_none, List.append_nil]
    refine ⟨steady.tallied accounts.tallied, ?_, ?_, ?_⟩
    · intro scope
      rw [same]
      exact steady.counts (accounts.counts scope)
    · intro scope
      rw [same]
      exact accounts.below scope
    · intro entry member scope req found
      rcases List.mem_cons.mp member with rfl | earlier
      · cases (none scope).symm.trans found
      · exact accounts.unlocked entry earlier scope req found
  · have grown : ∀ other, admissions other ((run.state, operation) :: run.record) =
        admissions other run.record ++ if scope = other then [req] else [] := by
      intro other
      rw [admissions_cons, admitted]
      split <;> rfl
    have was := accounts.tallied.retries_of_counts joins.kept joins.placed (accounts.counts scope)
    refine ⟨joins.tallied, ?_, ?_, ?_⟩
    · intro other
      have counts := joins.counts accounts.tallied (accounts.counts other)
      rw [grown]
      by_cases same : other = scope
      · subst same
        simpa using counts
      · simpa [same, Ne.symm same] using counts
    · intro other n found listed
      rw [grown] at listed
      by_cases same : scope = other
      · subst same
        rw [if_pos rfl, List.getElem?_append] at listed
        split at listed
        next => exact accounts.below scope n found listed
        next last =>
          -- The new request is the last of its scope.
          obtain ⟨inside, rfl⟩ := List.getElem?_eq_some_iff.mp listed
          have below := joins.below
          rw [was] at below
          simp only [List.length_singleton] at inside
          simp only [List.getElem_singleton]
          omega
      · rw [if_neg same, List.append_nil] at listed
        exact accounts.below other n found listed
    · intro entry member other found was id known
      rcases List.mem_cons.mp member with rfl | earlier
      · rw [admitted] at was
        split at was
        next same =>
          subst same
          obtain rfl := Database.scope_injective (joins.kept id scope known) joins.placed
          exact joins.unlocked
        next => cases was
      · exact accounts.unlocked entry earlier other found was id known

theorem accounts_reachable
    {guard : System.Recorded StoreState Operation → Operation → Prop}
    {run : System.Recorded StoreState Operation} (reached : store.recorded.Reachable guard run) :
    run.state.Valid ∧ Accounts run := by
  refine reached.induction (P := fun run => run.state.Valid ∧ Accounts run) ?_ ?_
  · rintro ⟨state, record⟩ ⟨⟨manifests, -, rfl⟩, rfl⟩
    exact ⟨StoreState.initial_valid manifests, .initial manifests⟩
  · rintro run operation later - ⟨valid, accounts⟩ - stepped
    cases stepped
    exact ⟨valid.step operation, accounts.step valid operation⟩

/-- The guard of a group counts the attempts admitted in it, which are those stored in
it; the n-th of them carried a threshold above n; and none was admitted while the
column `blocking_attempts` of the guard was positive. -/
theorem equivalent_retries_bounded {run : System.Recorded StoreState Operation}
    (reached : store.recorded.Reachable System.always run) :
    (∀ id guard, run.state.db.guards.get id = some guard →
      ∃ scope, run.state.db.scope id = some scope ∧
        guard.equivalentAttempts = (admissions scope run.record).length ∧
        guard.equivalentAttempts = run.state.db.members id) ∧
    (∀ scope, admissions scope run.record ≠ [] →
      ∃ id guard, run.state.db.guards.get id = some guard ∧
        run.state.db.scope id = some scope) ∧
    (∀ scope (n : Nat) req, (admissions scope run.record)[n]? = some req →
    (n : Int) + 1 < req.retryThreshold) ∧
    (∀ scope threshold, (∀ req ∈ admissions scope run.record, req.retryThreshold = threshold) →
      (admissions scope run.record).length ≤ (threshold - 1).toNat) ∧
    ∀ entry ∈ run.record, ∀ scope req, admittedIn scope entry = some req →
      ∀ id, entry.1.db.scope id = some scope → entry.1.db.blocking id ≤ 0 := by
  obtain ⟨-, accounts⟩ := accounts_reachable reached
  refine ⟨?_, ?_, accounts.below, ?_, accounts.unlocked⟩
  · intro id guard found
    obtain ⟨scope, known⟩ := accounts.tallied.guarded id guard found
    have retries := accounts.tallied.retries_of_counts (fun _ _ same => same) known
      (accounts.counts scope)
    have members := accounts.tallied.counted id
    unfold Database.retries at retries members
    rw [found, Option.elim_some] at retries members
    exact ⟨scope, known, retries, members⟩
  · intro scope some
    rcases accounts.counts scope with ⟨id, known, counted⟩ | ⟨-, zero⟩
    · have positive := List.length_pos_iff.mpr some
      unfold Database.retries at counted
      cases found : run.state.db.guards.get id with
      | none =>
        rw [found, Option.elim_none] at counted
        omega
      | some guard => exact ⟨id, guard, found, known⟩
    · have positive := List.length_pos_iff.mpr some
      omega
  · intro scope threshold common
    cases last : (admissions scope run.record).getLast? with
    | none =>
      rw [List.getLast?_eq_none_iff.mp last]
      exact Nat.zero_le _
    | some req =>
      have same := common req (List.mem_of_getLast? last)
      rw [List.getLast?_eq_getElem?] at last
      have below := accounts.below scope _ req last
      omega

def searchRequest (idempotencyKey : String) (id : UUID) (threshold : Int) : AdmissionRequest :=
  { (searchCall idempotencyKey "one" 0).admission id with retryThreshold := threshold }

def searchScope : RetryScope := (searchRequest "first" 1 3).scope sampleChecksum 0

def threeSearches : List Operation :=
  [.reserve 0 ⟨10, 11, 0⟩ (searchRequest "first" 1 3),
    .reserve 0 ⟨20, 21, 0⟩ (searchRequest "second" 2 3),
    .reserve 0 ⟨30, 31, 0⟩ (searchRequest "third" 3 3)]

theorem equivalent_retries_bounded_threeSearches :
    ∃ run guard, store.recorded.Reachable System.always run ∧
      run.state.db.guards.get 11 = some guard ∧ guard.equivalentAttempts = 2 ∧
      (admissions searchScope run.record).length = 2 ∧
      ∀ req, (admissions searchScope run.record)[1]? = some req → 2 < req.retryThreshold := by
  obtain ⟨run, -, reached, checked⟩ := System.exists_reachable
    (fun _ _ _ _ => trivial)
    (show store.recorded.initial ⟨.initial [sampleChecksum], []⟩ from ⟨sampleStore_initial, rfl⟩)
    (show (store.recorded.replay (fun _ _ => true) _ threeSearches).any (fun run =>
      (run.state.db.guards.get 11).any fun guard : RetryGuard =>
        decide (guard.equivalentAttempts = 2 ∧
          (admissions searchScope run.record).length = 2)) = true by decide +kernel)
  obtain ⟨guard, found, counted⟩ := (Option.any_eq_true _ _).mp checked
  obtain ⟨two, listed⟩ := of_decide_eq_true counted
  obtain ⟨-, -, below, -⟩ := equivalent_retries_bounded reached
  exact ⟨run, guard, reached, found, two, listed, fun req => below searchScope 1 req⟩

end OufMcp.Ledger
