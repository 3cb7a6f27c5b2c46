import OufMcp.Ledger.Operations

/-!
# Equivalence groups

Attempts with the same window, capability and fingerprint form an equivalence
group, and the group has a guard that counts them.  An admission finds or creates
its window, group and guard and counts itself before it is decided; no other
change joins a group.
-/

namespace OufMcp.Ledger

open Relational Transition

variable {id fresh group : UUID} {policyRef : String} {now : Time} {error : StoreError}

/-! ## Groups by what they are keyed with -/

structure WindowKey where
  servicePrincipalId : String
  principalId : String
  tenantId : String
  policyRef : String
  windowStart : Time
  deriving DecidableEq, Repr

def BudgetWindow.key (window : BudgetWindow) : WindowKey where
  servicePrincipalId := window.servicePrincipalId
  principalId := window.principalId
  tenantId := window.tenantId
  policyRef := window.policyRef
  windowStart := window.windowStart

/-- What makes attempts equivalent. -/
structure RetryScope where
  window : WindowKey
  capabilityId : String
  fingerprintVersion : String
  semanticFingerprint : String
  deriving DecidableEq, Repr

def EquivalenceGroup.scope (group : EquivalenceGroup) (window : WindowKey) : RetryScope where
  window := window
  capabilityId := group.capabilityId
  fingerprintVersion := group.fingerprintVersion
  semanticFingerprint := group.semanticFingerprint

/-- The scope an admission is counted in. -/
def AdmissionRequest.scope (req : AdmissionRequest) (policyRef : String) (now : Time) :
    RetryScope where
  window :=
    { servicePrincipalId := req.identity.servicePrincipalId
      principalId := req.identity.principalId
      tenantId := req.identity.tenantId
      policyRef := policyRef
      windowStart := timestamptz (now - now % req.window) }
  capabilityId := req.capabilityId
  fingerprintVersion := req.fingerprintVersion
  semanticFingerprint := req.semanticFingerprint

variable {req : AdmissionRequest}

namespace Database

def scope (db : Database) (id : UUID) : Option RetryScope :=
  (db.groups.get id).bind fun group =>
    (db.windows.get group.budgetWindowId).map fun window => group.scope window.key

def retries (db : Database) (id : UUID) : Int := (db.guards.get id).elim 0 (·.equivalentAttempts)

/-- The column `blocking_attempts` of a guard. -/
def blocking (db : Database) (id : UUID) : Int := (db.guards.get id).elim 0 (·.blockingAttempts)

def members (db : Database) (id : UUID) : Int :=
  db.contexts.sum fun _ context => if context.equivalenceGroupId = id then 1 else 0

variable {db : Database}

theorem scope_eq_some {scope : RetryScope} :
    db.scope id = some scope ↔ ∃ group window, db.groups.get id = some group ∧
      db.windows.get group.budgetWindowId = some window ∧ group.scope window.key = scope := by
  unfold Database.scope
  simp only [Option.bind_eq_some_iff, Option.map_eq_some_iff]
  constructor
  · rintro ⟨group, stored, window, housed, same⟩
    exact ⟨group, window, stored, housed, same⟩
  · rintro ⟨group, window, stored, housed, same⟩
    exact ⟨group, stored, window, housed, same⟩

theorem scope_injective {a b : UUID} {scope : RetryScope} (left : db.scope a = some scope)
    (right : db.scope b = some scope) : a = b := by
  obtain ⟨one, oneWindow, oneStored, oneHoused, rfl⟩ := scope_eq_some.mp left
  obtain ⟨two, twoWindow, twoStored, twoHoused, same⟩ := scope_eq_some.mp right
  obtain ⟨keys, capability, version, fingerprint⟩ := RetryScope.mk.inj same
  obtain ⟨service, principal, tenant, policy, start⟩ := WindowKey.mk.inj keys
  have sameWindow := db.windows.unique _ _ _ _ twoHoused oneHoused
    (decide_eq_true ⟨service, principal, tenant, policy, start⟩)
  refine db.groups.unique _ _ _ _ oneStored twoStored (decide_eq_true ?_)
  cases one
  cases two
  simp_all [EquivalenceGroup.scope]

theorem scope_congr {after : Database} (groups : after.groups = db.groups)
    (windows : ∀ id, (after.windows.get id).map (·.key) = (db.windows.get id).map (·.key))
    (id : UUID) : after.scope id = db.scope id := by
  have keyed : ∀ group : EquivalenceGroup,
      ((after.windows.get group.budgetWindowId).map fun window => group.scope window.key) =
        (db.windows.get group.budgetWindowId).map fun window => group.scope window.key := by
    intro group
    have keys := congrArg (Option.map group.scope) (windows group.budgetWindowId)
    rw [Option.map_map, Option.map_map] at keys
    exact keys
  unfold Database.scope
  rw [groups]
  simp only [keyed]

theorem stored_of_keys {after : Database}
    (windows : ∀ id, (after.windows.get id).map (·.key) = (db.windows.get id).map (·.key))
    {window : BudgetWindow} (stored : db.windows.get id = some window) :
    ∃ kept, after.windows.get id = some kept := by
  have same := windows id
  rw [stored] at same
  obtain ⟨kept, there, -⟩ := Option.map_eq_some_iff.mp same
  exact ⟨kept, there⟩

end Database

structure Database.Tallied (db : Database) : Prop where
  housed : ∀ id group, db.groups.get id = some group →
    ∃ window, db.windows.get group.budgetWindowId = some window
  guarded : ∀ id guard, db.guards.get id = some guard → ∃ scope, db.scope id = some scope
  counted : ∀ id, db.retries id = db.members id
  unblocked : ∀ id guard, db.guards.get id = some guard → guard.blocked = false

variable {db : Database}

theorem Database.migrated_tallied (manifests : List String) :
    (Database.migrated manifests).Tallied where
  housed id group found := by cases found
  guarded id guard found := by cases found
  counted _ := rfl
  unblocked id guard found := by cases found

/-! ## Changes that admit nothing -/

def RetryGuard.tally (guard : RetryGuard) : Int × Bool := (guard.equivalentAttempts, guard.blocked)

structure Steady (before after : Database) : Prop where
  contexts : after.contexts = before.contexts
  groups : after.groups = before.groups
  windows : ∀ id, (after.windows.get id).map (·.key) = (before.windows.get id).map (·.key)
  guards : ∀ id, (after.guards.get id).map (·.tally) = (before.guards.get id).map (·.tally)

namespace Steady

variable {before after : Database}

theorem refl (db : Database) : Steady db db := ⟨rfl, rfl, fun _ => rfl, fun _ => rfl⟩

theorem trans {middle : Database} (first : Steady before middle) (second : Steady middle after) :
    Steady before after :=
  ⟨second.contexts.trans first.contexts, second.groups.trans first.groups,
    fun id => (second.windows id).trans (first.windows id),
    fun id => (second.guards id).trans (first.guards id)⟩

theorem scope (steady : Steady before after) (id : UUID) : after.scope id = before.scope id :=
  Database.scope_congr steady.groups steady.windows id

theorem guard (steady : Steady before after) {id : UUID} {guard : RetryGuard}
    (found : after.guards.get id = some guard) :
    ∃ old, before.guards.get id = some old ∧ old.tally = guard.tally := by
  have same := steady.guards id
  rw [found] at same
  exact Option.map_eq_some_iff.mp same.symm

theorem retries (steady : Steady before after) (id : UUID) :
    after.retries id = before.retries id := by
  have same := steady.guards id
  unfold Database.retries
  cases found : before.guards.get id with
  | none =>
    rw [found] at same
    rw [Option.map_eq_none_iff.mp same]
  | some guard =>
    rw [found] at same
    obtain ⟨new, stored, tally⟩ := Option.map_eq_some_iff.mp same
    rw [stored]
    exact congrArg Prod.fst tally

theorem members (steady : Steady before after) (id : UUID) :
    after.members id = before.members id := by
  unfold Database.members
  rw [steady.contexts]

theorem tallied (steady : Steady before after) (tallied : before.Tallied) : after.Tallied where
  housed id group found := by
    rw [steady.groups] at found
    obtain ⟨window, stored⟩ := tallied.housed id group found
    exact Database.stored_of_keys steady.windows stored
  guarded id guard found := by
    obtain ⟨old, stored, -⟩ := steady.guard found
    rw [steady.scope]
    exact tallied.guarded id old stored
  counted id := by
    rw [steady.retries, steady.members]
    exact tallied.counted id
  unblocked id guard found := by
    obtain ⟨old, stored, tally⟩ := steady.guard found
    exact (congrArg Prod.snd tally).symm.trans (tallied.unblocked id old stored)

end Steady

theorem Change.keyed {kind : Kind} {old new : Rows} (change : Change kind old new) :
    new.window.key = old.window.key ∧ new.guard.tally = old.guard.tally := by
  cases change <;> exact ⟨rfl, rfl⟩

theorem Touches.steady {before after : Database} {kind : Kind} {old new : Rows}
    (touch : Touches id before after old new) (change : Change kind old new) :
    Steady before after where
  contexts := touch.contexts
  groups := touch.groups
  windows := touch.windows.column touch.held.window _ change.keyed.1
  guards := touch.guards.column touch.held.guard _ change.keyed.2

/-- Only an admission, and what it prepares, joins a group. -/
theorem Move.steady {kind : Kind} {before after : Database} (move : Move kind before after)
    (prepared : kind ≠ .prepare) (admitted : kind ≠ .admission) : Steady before after := by
  cases move with
  | openWindow | openGroup | openGuard | countGuard => exact absurd rfl prepared
  | admission => exact absurd rfl admitted
  | rewrite rewrites => exact rewrites.touch.steady rewrites.change
  | violate stamp found verified touch change put objects adjustments => exact touch.steady change
  | compensate stamp found verified touch change put counted unadjusted adjusts adjustments =>
    exact touch.steady change
  | append | note | ingest => exact ⟨rfl, rfl, fun _ => rfl, fun _ => rfl⟩

theorem Moves.steady {allowed : Kind → Prop} {before after : Database}
    (moves : Moves allowed before after) (formed : before.WellFormed)
    (quiet : ∀ kind, allowed kind → kind ≠ .prepare ∧ kind ≠ .admission) : Steady before after :=
  (moves.induction formed Steady.refl (fun _ _ _ first second => first.trans second)
    fun kind _ _ member _ move => move.steady (quiet kind member).1 (quiet kind member).2).2

/-! ## Admissions -/

/-- The window, group and guard an admission finds or creates before it is decided. -/
structure Prepares (scope : RetryScope) (group : UUID) (guard : RetryGuard)
    (before middle : Database) : Prop where
  contexts : middle.contexts = before.contexts
  housed : ∀ id row, middle.groups.get id = some row →
    ∃ window, middle.windows.get row.budgetWindowId = some window
  placed : middle.scope group = some scope
  kept : ∀ id found, before.scope id = some found → middle.scope id = some found
  fresh : ∀ id found, middle.scope id = some found → id = group ∨ before.scope id = some found
  guards : before.guards.Puts group guard middle.guards
  counted : guard.equivalentAttempts = before.retries group + 1
  locked : guard.blockingAttempts = before.blocking group
  marked : guard.blocked = (before.guards.get group).elim false (·.blocked)

theorem upsertWindow_sets {db after : Database} {start : Time}
    (done : Store.upsertWindow db fresh req policyRef start = .ok (id, after)) :
    ∃ windows window, after = { db with windows } ∧ db.windows.Sets id window windows ∧
      (db.windows.get id = none ∨ db.windows.get id = some window) ∧
      window.key = ⟨req.identity.servicePrincipalId, req.identity.principalId,
        req.identity.tenantId, policyRef, timestamptz start⟩ := by
  unfold Store.upsertWindow at done
  split at done
  next stored row existing =>
    obtain ⟨rfl, rfl⟩ := Prod.mk.inj (Except.ok.inj done)
    have found := Table.mem_toList.mp (List.mem_of_find?_eq_some existing)
    have matched := List.find?_some existing
    simp only [decide_eq_true_eq] at matched
    obtain ⟨service, principal, tenant, policy, begins⟩ := matched
    refine ⟨db.windows, row, rfl, .of_get found, .inr found, ?_⟩
    unfold BudgetWindow.key
    rw [service, principal, tenant, policy, begins]
  next =>
    simp only [bind_eq_ok, demand_eq_ok, pure_eq_ok, Prod.mk.injEq] at done
    obtain ⟨windows, inserted, rfl, rfl⟩ := done
    obtain ⟨unused, put⟩ := Table.insert?_eq_some.mp inserted
    exact ⟨windows, _, rfl, .inl put, .inl unused, rfl⟩

theorem upsertGroup_sets {db after : Database} {group : EquivalenceGroup}
    (done : Store.upsertGroup db fresh group = .ok (id, after)) :
    ∃ groups, after = { db with groups } ∧ db.groups.Sets id group groups ∧
      (db.groups.get id = none ∨ db.groups.get id = some group) := by
  unfold Store.upsertGroup Database.groupFor at done
  split at done
  next existing =>
    obtain ⟨rfl, rfl⟩ := Prod.mk.inj (Except.ok.inj done)
    obtain ⟨⟨key, row⟩, found, rfl⟩ := Option.map_eq_some_iff.mp existing
    have matched := List.find?_some found
    simp only [decide_eq_true_eq] at matched
    subst matched
    have stored := Table.mem_toList.mp (List.mem_of_find?_eq_some found)
    exact ⟨db.groups, rfl, .of_get stored, .inr stored⟩
  next =>
    simp only [bind_eq_ok, demand_eq_ok, pure_eq_ok, Prod.mk.injEq] at done
    obtain ⟨groups, inserted, rfl, rfl⟩ := done
    obtain ⟨unused, put⟩ := Table.insert?_eq_some.mp inserted
    exact ⟨groups, rfl, .inl put, .inl unused⟩

theorem upsertGuard_puts {db after : Database} {guard : RetryGuard}
    (done : Store.upsertGuard db group = .ok (guard, after)) :
    ∃ guards, after = { db with guards } ∧ db.guards.Puts group guard guards ∧
      guard.equivalentAttempts = db.retries group + 1 ∧
      guard.blockingAttempts = db.blocking group ∧
      guard.blocked = (db.guards.get group).elim false (·.blocked) := by
  unfold Store.upsertGuard at done
  simp only [bind_eq_ok, demand_eq_ok, pure_eq_ok, Prod.mk.injEq] at done
  obtain ⟨guards, put, rfl, rfl⟩ := done
  refine ⟨guards, rfl, put, ?_⟩
  unfold Database.retries Database.blocking
  cases db.guards.get group with
  | none => exact ⟨rfl, rfl, rfl⟩
  | some existing => exact ⟨rfl, rfl, rfl⟩

theorem prepares_of_upserts {db opened joined middle : Database} {fresh : Generated}
    {windowId groupId : UUID} {guard : RetryGuard} (tallied : db.Tallied)
    (window : Store.upsertWindow db fresh.windowId req policyRef (now - now % req.window) =
      .ok (windowId, opened)) (group : Store.upsertGroup opened fresh.groupId
      { budgetWindowId := windowId, capabilityId := req.capabilityId
        fingerprintVersion := req.fingerprintVersion
        semanticFingerprint := req.semanticFingerprint } = .ok (groupId, joined))
    (count : Store.upsertGuard joined groupId = .ok (guard, middle)) :
    Prepares (req.scope policyRef now) groupId guard db middle := by
  obtain ⟨windows, row, rfl, opens, freeWindow, keyed⟩ := upsertWindow_sets window
  obtain ⟨groups, rfl, joins, freeGroup⟩ := upsertGroup_sets group
  obtain ⟨guards, rfl, put, counted, locked, marked⟩ := upsertGuard_puts count
  refine ⟨rfl, ?_, ?_, ?_, ?_, put, counted, locked, marked⟩
  · intro id stored found
    by_cases same : id = groupId
    · subst same
      obtain rfl := Option.some.inj (joins.get_self.symm.trans found)
      exact ⟨row, opens.get_self⟩
    · obtain ⟨old, there⟩ := tallied.housed id stored ((joins.get_of_ne same).symm.trans found)
      exact ⟨old, opens.keeps freeWindow there⟩
  · refine Database.scope_eq_some.mpr ⟨_, row, joins.get_self, opens.get_self, ?_⟩
    rw [keyed]
    rfl
  · intro id found known
    obtain ⟨stored, old, inGroup, inWindow, rfl⟩ := Database.scope_eq_some.mp known
    exact Database.scope_eq_some.mpr ⟨stored, old, joins.keeps freeGroup inGroup,
      opens.keeps freeWindow inWindow, rfl⟩
  · intro id found known
    obtain ⟨stored, old, inGroup, inWindow, rfl⟩ := Database.scope_eq_some.mp known
    by_cases same : id = groupId
    · exact .inl same
    · -- The group was there before, and its window with it.
      have before : db.groups.get id = some stored := (joins.get_of_ne same).symm.trans inGroup
      obtain ⟨housing, there⟩ := tallied.housed id stored before
      obtain rfl := Option.some.inj ((opens.keeps freeWindow there).symm.trans inWindow)
      exact .inr (Database.scope_eq_some.mpr ⟨stored, housing, before, there, rfl⟩)

theorem upsertWindow_error {start : Time}
    (failed : Store.upsertWindow db fresh req policyRef start = .error error) :
    error = .constraintViolation := by
  unfold Store.upsertWindow at failed
  split at failed
  · cases failed
  · simp only [bind_eq_error, demand_eq_error, pure_ne_error, and_false, exists_false,
      or_false] at failed
    exact failed.2.symm

theorem upsertGroup_error {group : EquivalenceGroup}
    (failed : Store.upsertGroup db fresh group = .error error) : error = .constraintViolation := by
  unfold Store.upsertGroup at failed
  split at failed
  · cases failed
  · simp only [bind_eq_error, demand_eq_error, pure_ne_error, and_false, exists_false,
      or_false] at failed
    exact failed.2.symm

theorem upsertGuard_error (failed : Store.upsertGuard db group = .error error) :
    error = .constraintViolation := by
  unfold Store.upsertGuard at failed
  simp only [bind_eq_error, demand_eq_error, pure_ne_error, and_false, exists_false,
    or_false] at failed
  exact failed.2.symm

theorem insertAttempt_error {id window group : UUID}
    (failed : Store.insertAttempt db now id window group req = .error error) :
    error = .constraintViolation := by
  unfold Store.insertAttempt at failed
  simp only [bind_eq_error, ensure_eq_error, demand_eq_error, pure_ne_error, and_false,
    exists_false, or_false] at failed
  rcases failed with ⟨-, rfl⟩ | ⟨_, -, ⟨-, rfl⟩ | ⟨_, -, ⟨-, rfl⟩ | ⟨_, -, ⟨-, rfl⟩ |
    ⟨_, -, ⟨-, rfl⟩ | ⟨_, -, failed⟩⟩⟩⟩⟩
  · rfl
  · rfl
  · rfl
  · rfl
  · rfl
  · unfold Table.updateAny at failed
    split at failed
    · cases failed
    · exact (Except.error.inj failed).symm

/-- One attempt joins a group: its guard counts it, and no other count moves. -/
structure Joins (scope : RetryScope) (threshold : Int) (group : UUID) (before after : Database) :
    Prop where
  tallied : after.Tallied
  placed : after.scope group = some scope
  kept : ∀ id found, before.scope id = some found → after.scope id = some found
  fresh : ∀ id found, after.scope id = some found → id = group ∨ before.scope id = some found
  retries : ∀ id, after.retries id = before.retries id + if id = group then 1 else 0
  unlocked : before.blocking group ≤ 0
  below : before.retries group + 1 < threshold

structure Enters (id group : UUID) (before after : Database) : Prop where
  absent : before.contexts.get id = none
  context : ∃ context, context.equivalenceGroupId = group ∧
    before.contexts.Puts id context after.contexts
  groups : after.groups = before.groups
  guards : after.guards = before.guards
  windows : ∀ key, (after.windows.get key).map (·.key) = (before.windows.get key).map (·.key)

theorem insertAttempt_enters {db after : Database} {id windowId group : UUID}
    (done : Store.insertAttempt db now id windowId group req = .ok after) :
    Enters id group db after := by
  unfold Store.insertAttempt at done
  simp only [bind_eq_ok, demand_eq_ok, ensure_eq_ok, exists_const, pure_eq_ok] at done
  obtain ⟨-, attempts, -, claims, -, contexts, context, reservations, -, windows, charged, rfl⟩ :=
    done
  obtain ⟨absent, put⟩ := Table.insert?_eq_some.mp context
  refine ⟨absent, ⟨_, rfl, put⟩, rfl, rfl, ?_⟩
  intro key
  rcases Table.updateAny_eq_ok.mp charged with ⟨-, rfl⟩ | ⟨row, found, put⟩
  · rfl
  · exact Table.Sets.column (.inl put) found BudgetWindow.key rfl key

theorem Enters.members {before after : Database} (enters : Enters id group before after)
    (other : UUID) :
    after.members other = before.members other + if other = group then 1 else 0 := by
  obtain ⟨context, joined, put⟩ := enters.context
  have total := put.sum fun _ context => if context.equivalenceGroupId = other then (1 : Int) else 0
  rw [enters.absent, Option.elim_none, add_zero, joined] at total
  unfold Database.members
  rw [total]
  simp only [eq_comm]

theorem Prepares.retries {scope : RetryScope} {guard : RetryGuard} {before middle : Database}
    (prepares : Prepares scope group guard before middle) (id : UUID) :
    middle.retries id = before.retries id + if id = group then 1 else 0 := by
  unfold Database.retries
  by_cases same : id = group
  · subst same
    rw [prepares.guards.get_self, Option.elim_some, if_pos rfl, prepares.counted]
    rfl
  · rw [prepares.guards.get_of_ne same, if_neg same, add_zero]

theorem Prepares.joins {scope : RetryScope} {guard : RetryGuard} {before middle after : Database}
    {threshold : Int} (prepares : Prepares scope group guard before middle)
    (tallied : before.Tallied) (free : guard.blockingAttempts ≤ 0)
    (unmarked : guard.blocked = false) (below : guard.equivalentAttempts < threshold)
    (enters : Enters id group middle after) : Joins scope threshold group before after := by
  have scopes := Database.scope_congr enters.groups enters.windows
  have retries : ∀ key, after.retries key = before.retries key + if key = group then 1 else 0 := by
    intro key
    rw [← prepares.retries]
    unfold Database.retries
    rw [enters.guards]
  refine ⟨⟨?_, ?_, ?_, ?_⟩, ?_, ?_, ?_, retries, prepares.locked ▸ free, prepares.counted ▸ below⟩
  · intro key row found
    rw [enters.groups] at found
    obtain ⟨window, stored⟩ := prepares.housed key row found
    exact Database.stored_of_keys enters.windows stored
  · intro key stored found
    rw [enters.guards] at found
    rw [scopes]
    by_cases same : key = group
    · exact ⟨scope, same ▸ prepares.placed⟩
    · obtain ⟨known, was⟩ := tallied.guarded key stored
        ((prepares.guards.get_of_ne same).symm.trans found)
      exact ⟨known, prepares.kept key known was⟩
  · intro key
    have same : middle.members key = before.members key := by
      unfold Database.members
      rw [prepares.contexts]
    rw [enters.members, same, ← tallied.counted]
    exact retries key
  · intro key stored found
    rw [enters.guards] at found
    by_cases same : key = group
    · subst same
      obtain rfl := Option.some.inj (prepares.guards.get_self.symm.trans found)
      exact unmarked
    · exact tallied.unblocked key stored ((prepares.guards.get_of_ne same).symm.trans found)
  · exact (scopes group).trans prepares.placed
  · intro key known was
    exact (scopes key).trans (prepares.kept key known was)
  · intro key known now
    exact prepares.fresh key known ((scopes key).symm.trans now)

/-- A successful admission replays a claim and writes nothing, or joins its group. -/
theorem reserveOnce_joins {db after : Database} {fresh : Generated} {limit : Cost}
    {decision : AdmissionDecision} (tallied : db.Tallied)
    (policy : Store.admissionPolicy req = .ok (policyRef, limit))
    (done : Store.reserveOnce db now fresh req = .ok (decision, after)) :
    (decision.replay = true ∧ after = db) ∨
      (decision.replay = false ∧
        ∃ group, Joins (req.scope policyRef now) req.retryThreshold group db after) := by
  unfold Store.reserveOnce at done
  rw [policy] at done
  simp only [bind_eq_ok, Except.ok.injEq, exists_eq_left'] at done
  split at done
  next =>
    left
    unfold Store.replayClaim at done
    simp only [bind_eq_ok, ensure_eq_ok, exists_const, pure_eq_ok, Prod.mk.injEq] at done
    obtain ⟨-, -, -, -, rfl, rfl⟩ := done
    exact ⟨rfl, rfl⟩
  next =>
    right
    unfold Store.admitNew at done
    simp only [bind_eq_ok, Prod.exists, demand_eq_ok, ensure_eq_ok, exists_const, pure_eq_ok,
      Prod.mk.injEq] at done
    obtain ⟨windowId, opened, upserted, window, -, -, -, groupId, joined, grouped,
      guard, middle, counted, free, below, final, inserted, rfl, rfl⟩ := done
    have prepares := prepares_of_upserts tallied upserted grouped counted
    exact ⟨rfl, groupId, prepares.joins tallied free below.1 below.2
      (insertAttempt_enters inserted)⟩

/-- A stalled admission found its group marked, or its count at the threshold. -/
theorem reserveOnce_stalls {fresh : Generated} {limit : Cost} (tallied : db.Tallied)
    (policy : Store.admissionPolicy req = .ok (policyRef, limit))
    (failed : Store.reserveOnce db now fresh req = .error .toolSelectionStall) :
    ∃ group guard middle, Prepares (req.scope policyRef now) group guard db middle ∧
      (guard.blocked = true ∨ req.retryThreshold ≤ guard.equivalentAttempts) := by
  unfold Store.reserveOnce at failed
  rw [policy] at failed
  simp only [bind_eq_error, reduceCtorEq, false_or, Except.ok.injEq, exists_eq_left'] at failed
  split at failed
  next =>
    unfold Store.replayClaim at failed
    simp only [bind_eq_error, ensure_eq_error, demand_eq_error, pure_ne_error, reduceCtorEq,
      and_false, exists_false, or_false] at failed
  next =>
    unfold Store.admitNew at failed
    simp only [bind_eq_error, Prod.exists, demand_eq_error, demand_eq_ok, ensure_eq_error,
      ensure_eq_ok, exists_const, pure_ne_error, reduceCtorEq, and_false, exists_false, or_false,
      false_or, and_true] at failed
    rcases failed with failed | ⟨windowId, opened, upserted, window, -, -, -, failed |
      ⟨groupId, joined, grouped, failed | ⟨guard, middle, counted, free, stalled | ⟨-, failed⟩⟩⟩⟩
    · cases upsertWindow_error failed
    · cases upsertGroup_error failed
    · cases upsertGuard_error failed
    · refine ⟨groupId, guard, middle, prepares_of_upserts tallied upserted grouped counted, ?_⟩
      rcases not_and_or.mp stalled with marked | reached
      · exact .inl (Bool.not_eq_false _ ▸ marked)
      · exact .inr (not_lt.mp reached)
    · cases insertAttempt_error failed

end OufMcp.Ledger
