import OufMcp.Ledger.Leases
import OufMcp.Ledger.Round

/-!
# The recovery transactions as runs of their statements

A transaction of the store that commits does to the attempts what its statements do
when no other worker interferes: from the rows of the database the statements reach a
state that can commit, and committing leaves the rows of the database the transaction
returned.
-/

namespace OufMcp.Ledger

open Relational Transition

variable {stamp now : Time} {evidence : OwnerEvidence} {id : UUID}

/-! ## Updates of one attempt -/

/-- One database differs from another in one attempt, by an update that affects it. -/
def Database.Updates (db after : Database) (id : UUID) (set : ToolAttempt → Option ToolAttempt) :
    Prop :=
  ∃ old new, db.attempts.get id = some old ∧ set old = some new ∧
    ∀ other, after.attempts.get other = if other = id then some new else db.attempts.get other

section Updates

variable {db after : Database} {id : UUID}

theorem Database.Updates.of_same {set : ToolAttempt → Option ToolAttempt} {attempt : ToolAttempt}
    (found : db.attempts.get id = some attempt) (same : set attempt = some attempt) :
    db.Updates db id set := by
  refine ⟨attempt, attempt, found, same, ?_⟩
  intro other
  split
  next own => rw [own, found]
  next => rfl

theorem Database.Updates.of_put {set : ToolAttempt → Option ToolAttempt} {old new : ToolAttempt}
    (found : db.attempts.get id = some old) (wrote : set old = some new)
    (put : db.attempts.Puts id new after.attempts) : db.Updates after id set :=
  ⟨old, new, found, wrote, put.get⟩

theorem expireAdmission_updates {row : ExpiredAdmission}
    (done : Store.expireAdmission stamp db row = .ok after) :
    db.Updates after row.id (·.releaseStale stamp) := by
  unfold Store.expireAdmission at done
  simp only [bind_eq_ok, demand_eq_ok] at done
  obtain ⟨attempt, found, done⟩ := done
  split at done
  next other =>
    obtain rfl := pure_eq_ok.mp done
    exact .of_same found (if_pos other)
  next admitted =>
    simp only [bind_eq_ok, pure_eq_ok] at done
    obtain ⟨windows, -, middle, failed, reservations, -, claims, -, rfl⟩ := done
    obtain ⟨⟨-, unsent⟩, attempts, put, rfl⟩ := updateAttemptOne_of_get failed found
    refine .of_put found ?_ put
    unfold ToolAttempt.releaseStale
    rw [if_neg admitted, if_pos unsent]

theorem markUnknown_updates {row : StaleDispatch}
    (done : Store.markUnknown now db row = .ok after) :
    db.Updates after row.id (·.loseStale now) := by
  unfold Store.markUnknown at done
  simp only [bind_eq_ok, demand_eq_ok] at done
  obtain ⟨attempt, found, done⟩ := done
  split at done
  next other =>
    obtain rfl := pure_eq_ok.mp done
    exact .of_same found (if_pos other)
  next stale =>
    simp only [bind_eq_ok, pure_eq_ok] at done
    obtain ⟨middle, lost, guards, -, windows, -, debts, -, reservations, -, claims, -, rfl⟩ := done
    obtain ⟨-, attempts, put, rfl⟩ := updateAttemptOne_of_get lost found
    exact .of_put found (if_neg stale) put

theorem claimCandidate_updates {worker : String} {leaseUntil : Time} {row : Candidate}
    (done : Store.claimCandidate worker leaseUntil db row = .ok after) :
    db.Updates after row.attemptId (·.claimFor worker leaseUntil) := by
  unfold Store.claimCandidate at done
  simp only [bind_eq_ok, demand_eq_ok, ensure_eq_ok, exists_const, writeAttempt_eq_ok] at done
  obtain ⟨attempt, found, unknown, attempts, put, rfl⟩ := done
  exact .of_put found (if_pos unknown) put

theorem ToolAttempt.applyEvidence_of_requested {attempt : ToolAttempt} {worker : String}
    {backendRequestId : String} (requested : attempt.backendRequestId = some backendRequestId) :
    attempt.applyEvidence worker evidence stamp =
      if attempt.state ≠ .unknown then some attempt
      else if attempt.recoveryOwner.getD "" = worker ∧
          backendRequestId = evidence.backendRequestId then
        if attempt.recoveryOwner = some worker then
          some (if evidence.outcome = .unknown then attempt.letGo
            else attempt.recover evidence stamp)
        else none
      else none := by
  unfold ToolAttempt.applyEvidence
  rw [requested]
  rfl

theorem applyOwnerEvidence_updates {worker : String}
    (done : Store.applyOwnerEvidence db stamp id worker evidence = .ok after) :
    db.Updates after id (·.applyEvidence worker evidence stamp) := by
  unfold Store.applyOwnerEvidence at done
  simp only [bind_eq_ok, demand_eq_ok] at done
  obtain ⟨context, -, attempt, found, backendRequestId, requested, done⟩ := done
  split at done
  next settled =>
    obtain rfl := pure_eq_ok.mp done
    refine .of_same found ?_
    rw [ToolAttempt.applyEvidence_of_requested requested, if_pos settled]
  next unknown =>
    simp only [bind_eq_ok, ensure_eq_ok, exists_const] at done
    obtain ⟨owned, done⟩ := done
    split at done
    next undecided =>
      obtain ⟨⟨mine, -⟩, attempts, put, rfl⟩ := updateAttemptOne_of_get done found
      refine .of_put found ?_ put
      rw [ToolAttempt.applyEvidence_of_requested requested, if_neg unknown, if_pos owned,
        if_pos mine, if_pos undecided]
    next decided =>
      simp only [bind_eq_ok, demand_eq_ok, ensure_eq_ok, exists_const, Store.applyOwnerOutcome,
        pure_eq_ok] at done
      obtain ⟨reservation, -, -, -, -, windows, -, guards, -, middle, recovered,
        reservations, -, claims, -, rfl⟩ := done
      obtain ⟨⟨mine, -⟩, attempts, put, rfl⟩ := updateAttemptOne_of_get recovered found
      refine .of_put found ?_ put
      rw [ToolAttempt.applyEvidence_of_requested requested, if_neg unknown, if_pos owned,
        if_pos mine, if_neg decided]

theorem expireOne_updates {row : ExpiryCandidate} (done : Store.expireOne now db row = .ok after) :
    db.Updates after row.attempt (·.expireStale now) := by
  unfold Store.expireOne at done
  simp only [bind_eq_ok, demand_eq_ok] at done
  obtain ⟨attempt, found, done⟩ := done
  split at done
  next other =>
    obtain rfl := pure_eq_ok.mp done
    exact .of_same found (if_pos other)
  next unknown =>
    simp only [bind_eq_ok, demand_eq_ok, ensure_eq_ok, exists_const] at done
    obtain ⟨reservation, -, -, windows, -, reservations, -, claims, -, expired⟩ := done
    obtain ⟨-, attempts, put, rfl⟩ := updateAttemptOne_of_get expired found
    exact .of_put found (if_neg unknown) put

end Updates

/-! ## A worker alone -/

section Alone

variable {τ : Type} [DecidableEq τ] {name : τ → String} {state : Cluster τ} {worker : τ}
  {db after : Database}

/-- No other worker is in a transaction or holds a lock, and the worker sees the attempts of
the database. -/
structure Cluster.Alone (state : Cluster τ) (worker : τ) (db : Database) : Prop where
  others : ∀ other ≠ worker, state.phase other = .idle
  free : ∀ id, state.rows.free worker id = true
  sees : ∀ id, state.rows.visible worker id = db.attempts.get id

theorem Cluster.Alone.others_enter (alone : state.Alone worker db) (phase : Transaction) :
    ∀ other ≠ worker, (state.enter worker phase).phase other = .idle :=
  fun other apart => (Function.update_of_ne apart _ _).trans (alone.others other apart)

theorem Cluster.Alone.enter (alone : state.Alone worker db) (phase : Transaction) :
    (state.enter worker phase).Alone worker db :=
  ⟨alone.others_enter phase, alone.free, alone.sees⟩

theorem Cluster.Alone.keep (alone : state.Alone worker db) {new : ToolAttempt}
    (changed : ∀ other, after.attempts.get other =
      if other = id then some new else db.attempts.get other) (phase : Transaction) :
    ({ state with rows := state.rows.keep worker id new }.enter worker phase).Alone
      worker after := by
  refine ⟨alone.others_enter phase, ?_, ?_⟩
  · intro other
    change (state.rows.keep worker id new).free worker other = true
    by_cases same : other = id
    · subst same
      unfold LockedRows.free
      rw [LockedRows.keep_holds]
      simp
    · have kept := alone.free other
      unfold LockedRows.free at kept ⊢
      rwa [LockedRows.keep_held_of_ne same]
  · intro other
    change (state.rows.keep worker id new).visible worker other = _
    rw [changed other]
    by_cases same : other = id
    · subst same
      rw [if_pos rfl]
      exact LockedRows.visible_of_holds LockedRows.keep_holds
    · rw [if_neg same, ← alone.sees other]
      unfold LockedRows.visible
      rw [LockedRows.keep_held_of_ne same]
      rfl

theorem Cluster.Alone.lock (alone : state.Alone worker db) {old : ToolAttempt}
    (found : db.attempts.get id = some old) (phase : Transaction) :
    ∃ locked, state.lock worker id phase = some locked ∧ locked.Alone worker db ∧
      locked.phase worker = phase := by
  have same : ∀ other, db.attempts.get other =
      if other = id then some old else db.attempts.get other := by
    intro other
    split
    next own => rw [own, found]
    next => rfl
  refine ⟨_, ?_, alone.keep same phase, Function.update_self ..⟩
  unfold Cluster.lock LockedRows.lock?
  rw [if_pos (alone.free id), alone.sees id, found]
  rfl

theorem Cluster.Alone.write (alone : state.Alone worker db) {set : ToolAttempt → Option ToolAttempt}
    (updates : db.Updates after id set) (phase : Transaction) :
    ∃ written, state.write worker id set phase = some written ∧ written.Alone worker after ∧
      written.phase worker = phase := by
  obtain ⟨old, new, found, wrote, changed⟩ := updates
  refine ⟨_, ?_, alone.keep changed phase, Function.update_self ..⟩
  unfold Cluster.write
  rw [if_pos (alone.free id), alone.sees id, found, Option.bind_some, wrote]
  rfl

/-- The states from which the worker goes on alone, and what it sees there. -/
structure Cluster.Ready (state : Cluster τ) (worker : τ) (phase : Transaction) (db : Database) :
    Prop where
  alone : state.Alone worker db
  phase : state.phase worker = phase

variable (name) in
theorem foldlM_statements {α : Type} {body : Database → α → Except StoreError Database}
    {rows : List α} (loop : List α → Transaction) {first last : Database}
    (pass : ∀ row rest (state : Cluster τ) db next, state.Ready worker (loop (row :: rest)) db →
      body db row = .ok next → ∃ after, (cluster name).Steps System.always state after ∧
        after.Ready worker (loop rest) next)
    (done : rows.foldlM body first = .ok last) (ready : state.Ready worker (loop rows) first) :
    ∃ after, (cluster name).Steps System.always state after ∧
      after.Ready worker (loop []) last := by
  induction rows generalizing state first with
  | nil =>
    rw [List.foldlM_nil, pure_eq_ok] at done
    subst done
    exact ⟨state, .refl, ready⟩
  | cons row rest ih =>
    rw [List.foldlM_cons, bind_eq_ok] at done
    obtain ⟨next, passed, done⟩ := done
    obtain ⟨middle, steps, going⟩ := pass row rest state first next ready passed
    obtain ⟨final, more, ends⟩ := ih done going
    exact ⟨final, steps.trans more, ends⟩

variable (name) in
theorem lock_update {set : ToolAttempt → Option ToolAttempt} (stamp : Time) {phase : Transaction}
    (middle final : Transaction) (ready : state.Ready worker phase db)
    (updates : db.Updates after id set) (locks : ∀ state : Cluster τ, state.phase worker = phase →
      state.step name (.lock worker id) = state.lock worker id middle)
    (writes : ∀ state : Cluster τ, state.phase worker = middle →
      state.step name (.update worker stamp) = state.write worker id set final) :
    ∃ next, (cluster name).Steps System.always state next ∧ next.Ready worker final after := by
  have row : ∃ old, db.attempts.get id = some old := updates.imp fun old rest => rest.choose_spec.1
  obtain ⟨old, found⟩ := row
  obtain ⟨locked, takes, alone, inside⟩ := ready.alone.lock found middle
  obtain ⟨written, puts, ends, outside⟩ := alone.write updates final
  refine ⟨written, .head ⟨.lock worker id, trivial, (locks state ready.phase).trans takes⟩
    (.single ⟨.update worker stamp, trivial, (writes locked inside).trans puts⟩), ends, outside⟩

/-- No transaction is open, and the committed attempts are those of the database. -/
structure Cluster.Settled (state : Cluster τ) (db : Database) : Prop where
  idle : ∀ worker, state.phase worker = .idle
  unlocked : ∀ id, state.rows.held id = none
  committed : state.rows.committed = db.attempts.get

omit [DecidableEq τ] in
theorem Cluster.settled (db : Database) :
    (Cluster.mk (.settled db.attempts.get) (fun _ : τ => .idle) 0).Settled db :=
  ⟨fun _ => rfl, fun _ => rfl, rfl⟩

theorem Cluster.Alone.finish (alone : state.Alone worker db) :
    (state.finish worker).Settled db := by
  refine ⟨?_, ?_, funext alone.sees⟩
  · intro other
    by_cases same : other = worker
    · rw [same]
      exact Function.update_self ..
    · exact alone.others_enter .idle other same
  · intro id
    have own := alone.free id
    change (state.rows.held id).filter _ = none
    cases held : state.rows.held id with
    | none => rfl
    | some lock =>
      rw [LockedRows.free, held, Option.all_some, decide_eq_true_eq] at own
      simp [own]

theorem Cluster.Settled.alone (settled : state.Settled db) (worker : τ) :
    state.Alone worker db := by
  refine ⟨fun other _ => settled.idle other, ?_, ?_⟩
  · intro id
    unfold LockedRows.free
    rw [settled.unlocked id]
    rfl
  · intro id
    unfold LockedRows.visible
    rw [settled.unlocked id, settled.committed]

theorem Cluster.Settled.tick (settled : state.Settled db) (name : τ → String) (now : Time) :
    ∃ later, (cluster name).Steps System.always state later ∧ later.Settled db ∧
      now ≤ later.clock := by
  refine ⟨{ state with clock := max state.clock now }, ?_, ⟨settled.idle, settled.unlocked,
    settled.committed⟩, le_max_right _ _⟩
  exact .single ⟨.tick _, trivial, if_pos (le_max_left _ _)⟩

/-! ## The transactions -/

theorem applyOwnerEvidence_statements (settled : state.Settled db)
    (done : Store.applyOwnerEvidence db stamp id (name worker) evidence = .ok after) :
    ∃ final, (cluster name).Steps System.always state final ∧ final.Settled after := by
  have begun : (cluster name).step state (.apply worker id evidence) =
      some (state.enter worker (.applying id evidence false)) := if_pos (settled.idle worker)
  obtain ⟨middle, steps, ready⟩ := lock_update name stamp (.applying id evidence true) .applied
    ⟨(settled.alone worker).enter (.applying id evidence false), Function.update_self ..⟩
    (applyOwnerEvidence_updates done)
    (fun state phase => by simp [Cluster.step, phase])
    (fun state phase => by simp [Cluster.step, phase])
  refine ⟨middle.finish worker, .tail (.head ⟨_, trivial, begun⟩ steps)
    ⟨.commit worker, trivial, ?_⟩, ready.alone.finish⟩
  change middle.step name (.commit worker) = _
  simp only [Cluster.step, ready.phase]

theorem nodup_selectExpiredUnknown (seen : Database) (now unknownBefore : Time) (limit : Nat) :
    ((Store.selectExpiredUnknown seen now unknownBefore limit).map (·.attempt)).Nodup := by
  refine nodup_firstBy (nodup_filterMap Prod.fst (seen.attempts.nodup_select _) ?_)
  intro entry row joined
  obtain ⟨context, -, rfl⟩ := Option.map_eq_some_iff.mp joined
  rfl

theorem expireUnknown_statements {now unknownBefore : Time} {limit : Nat}
    (settled : state.Settled db) (current : now ≤ state.clock) (worker : τ)
    (done : Store.expireUnknown db db now unknownBefore limit = .ok after) :
    ∃ final, (cluster name).Steps System.always state final ∧ final.Settled after := by
  let rows := Store.selectExpiredUnknown db now unknownBefore limit
  have overdue : (rows.map (·.attempt)).all (state.overdue now unknownBefore) = true := by
    rw [List.all_eq_true]
    intro id member
    obtain ⟨row, listed, rfl⟩ := List.mem_map.mp member
    obtain ⟨⟨id, attempt⟩, selected, joined⟩ := List.mem_filterMap.mp (mem_of_mem_firstBy listed)
    obtain ⟨context, -, rfl⟩ := Option.map_eq_some_iff.mp joined
    obtain ⟨found, wanted⟩ := Table.mem_select.mp selected
    unfold Cluster.overdue
    rw [settled.committed]
    simp only [found, Option.any_some]
    exact wanted
  have begun : (cluster name).step state
      (.expire worker now unknownBefore limit (rows.map (·.attempt))) =
      some (state.enter worker (.expiring now (rows.map (·.attempt)) false)) := by
    refine if_pos ⟨settled.idle worker, current,
      nodup_selectExpiredUnknown db now unknownBefore limit, ?_, overdue⟩
    rw [List.length_map]
    exact List.length_take_le _ _
  obtain ⟨middle, steps, ready⟩ := foldlM_statements name
    (fun rows : List ExpiryCandidate => .expiring now (rows.map (·.attempt)) false)
    (fun row rest state db next ready passed => lock_update name 0
      (.expiring now (row.attempt :: rest.map (·.attempt)) true) _ ready (expireOne_updates passed)
      (fun state phase => by simp [Cluster.step, phase])
      (fun state phase => by simp [Cluster.step, phase]))
    done ⟨(settled.alone worker).enter _, Function.update_self ..⟩
  refine ⟨middle.finish worker, .tail (.head ⟨_, trivial, begun⟩ steps)
    ⟨.commit worker, trivial, ?_⟩, ready.alone.finish⟩
  change middle.step name (.commit worker) = _
  simp only [Cluster.step, ready.phase]
  rfl

theorem foldlM_claimCandidate_statements {now leaseUntil : Time} {rows : List Candidate}
    {out : List UUID}
    (done : rows.foldlM (Store.claimCandidate (name worker) leaseUntil) db = .ok after)
    (ready : state.Ready worker (.holding now leaseUntil (rows.map (·.attemptId)) out) db) :
    ∃ final, (cluster name).Steps System.always state final ∧
      final.Ready worker (.holding now leaseUntil [] (out ++ rows.map (·.attemptId))) after := by
  induction rows generalizing state db out with
  | nil =>
    rw [List.foldlM_nil, pure_eq_ok] at done
    subst done
    rw [List.map_nil, List.append_nil]
    exact ⟨state, .refl, ready⟩
  | cons row rest ih =>
    rw [List.foldlM_cons, bind_eq_ok] at done
    obtain ⟨next, claimed, done⟩ := done
    obtain ⟨written, puts, alone, phase⟩ := ready.alone.write (claimCandidate_updates claimed)
      (.holding now leaseUntil (rest.map (·.attemptId)) (out ++ [row.attemptId]))
    obtain ⟨final, steps, ends⟩ := ih done ⟨alone, phase⟩
    rw [List.append_assoc] at ends
    have updated : (cluster name).step state (.update worker 0) = some written := by
      change state.step name (.update worker 0) = _
      simp only [Cluster.step, ready.phase, List.map_cons]
      exact puts
    exact ⟨final, .head ⟨_, trivial, updated⟩ steps, ends⟩

theorem Cluster.Alone.lockAll (alone : state.Alone worker db) {ids : List UUID}
    (found : ∀ id ∈ ids, (db.attempts.get id).isSome = true) (phase : Transaction) :
    ∃ rows, state.rows.lockAll? worker ids = some rows ∧
      ({ state with rows }.enter worker phase).Alone worker db := by
  induction ids generalizing state with
  | nil => exact ⟨state.rows, rfl, alone.enter phase⟩
  | cons id rest ih =>
    obtain ⟨attempt, row⟩ := Option.isSome_iff_exists.mp (found id List.mem_cons_self)
    obtain ⟨locked, takes, next, -⟩ := alone.lock row (state.phase worker)
    obtain ⟨rows, taken, rfl⟩ := Option.map_eq_some_iff.mp takes
    obtain ⟨last, all, ends⟩ := ih next fun other member => found other (.tail _ member)
    refine ⟨last, ?_, alone.others_enter phase, ends.free, ends.sees⟩
    unfold LockedRows.lockAll?
    rw [List.foldlM_cons, taken]
    exact all

theorem markStaleAndClaim_statements {admissions dispatches : Database}
    {stamp now admittedBefore lease : Time} {limit : Nat} {locked : List UUID}
    {candidates : List Candidate} (settled : state.Settled db) (current : now ≤ state.clock)
    (done : Store.markStaleAndClaim admissions dispatches db stamp now admittedBefore (name worker)
      lease limit locked = .ok (candidates, after)) :
    ∃ final, (cluster name).Steps System.always state final ∧ final.Settled after := by
  unfold Store.markStaleAndClaim at done
  simp only [bind_eq_ok, pure_eq_ok] at done
  obtain ⟨released, releases, lost, loses, out, selected, claimed, claims, same⟩ := done
  obtain ⟨rfl, rfl⟩ := Prod.mk.inj same
  have begun : (cluster name).step state (.claim worker now lease limit) =
      some (state.enter worker (.releasing now (now + lease) limit none)) :=
    if_pos ⟨settled.idle worker, current⟩
  obtain ⟨first, firstSteps, firstReady⟩ := foldlM_statements name
    (fun _ : List ExpiredAdmission => .releasing now (now + lease) limit none)
    (fun row rest state db next ready passed => lock_update name stamp
      (.releasing now (now + lease) limit (some row.id)) _ ready (expireAdmission_updates passed)
      (fun state phase => by simp [Cluster.step, phase])
      (fun state phase => by simp [Cluster.step, phase]))
    releases ⟨(settled.alone worker).enter _, Function.update_self ..⟩
  have turned : (cluster name).step first (.dispatches worker) =
      some (first.enter worker (.losing now (now + lease) limit none)) := by
    change first.step name (.dispatches worker) = _
    simp only [Cluster.step, firstReady.phase]
  obtain ⟨second, secondSteps, secondReady⟩ := foldlM_statements name
    (fun _ : List StaleDispatch => .losing now (now + lease) limit none)
    (fun row rest state db next ready passed => lock_update name stamp
      (.losing now (now + lease) limit (some row.id)) _ ready (markUnknown_updates passed)
      (fun state phase => by simp [Cluster.step, phase])
      (fun state phase => by simp [Cluster.step, phase]))
    loses ⟨firstReady.alone.enter _, Function.update_self ..⟩
  -- The candidates are what the query for them may return.
  have ids := (mapM_candidate selected).1
  have claimable : (out.map (·.attemptId)).all (second.claimable worker now) = true ∧
      ∀ id ∈ out.map (·.attemptId), (lost.attempts.get id).isSome = true := by
    rw [ids, List.all_eq_true, ← forall₂_and]
    intro id member
    obtain ⟨row, listed, rfl⟩ := List.mem_map.mp member
    obtain ⟨⟨id, attempt⟩, chosen, joined⟩ := List.mem_filterMap.mp (mem_of_mem_firstBy listed)
    obtain ⟨context, -, rfl⟩ := Option.map_eq_some_iff.mp joined
    obtain ⟨found, wanted⟩ := Table.mem_select.mp chosen
    simp only [Bool.and_eq_true] at wanted
    refine ⟨?_, Option.isSome_iff_exists.mpr ⟨attempt, found⟩⟩
    unfold Cluster.claimable
    rw [secondReady.alone.free, secondReady.alone.sees, found, Option.any_some, Bool.true_and,
      Bool.and_eq_true]
    exact wanted.1
  obtain ⟨rows, locks, third⟩ := secondReady.alone.lockAll claimable.2
    (.holding now (now + lease) (out.map (·.attemptId)) [])
  have distinct : (out.map (·.attemptId)).Nodup := by
    rw [ids]
    exact nodup_selectUnknown lost now locked limit
  have few : (out.map (·.attemptId)).length ≤ limit := by
    rw [ids, List.length_map]
    exact List.length_take_le _ _
  have picked : (cluster name).step second (.select worker (out.map (·.attemptId))) =
      some ({ second with rows }.enter worker
        (.holding now (now + lease) (out.map Candidate.attemptId) [])) := by
    change second.step name (.select worker (out.map Candidate.attemptId)) = _
    simp only [Cluster.step, secondReady.phase]
    rw [if_pos ⟨distinct, few, claimable.1⟩, locks]
    rfl
  obtain ⟨middle, lastSteps, ready⟩ := foldlM_claimCandidate_statements claims
    ⟨third, Function.update_self ..⟩
  have steps := Relation.ReflTransGen.head ⟨_, trivial, begun⟩ (firstSteps.trans (.head
    ⟨_, trivial, turned⟩ (secondSteps.trans (.head ⟨_, trivial, picked⟩ lastSteps))))
  refine ⟨middle.finish worker, .tail steps ⟨.commit worker, trivial, ?_⟩, ready.alone.finish⟩
  change middle.step name (.commit worker) = _
  simp only [Cluster.step, ready.phase]

end Alone

/-! ## Histories of transactions -/

/-- A transaction of a recovery worker, with the instants and rows it is given. -/
inductive RecoveryCall (τ : Type) where
  | claim (worker : τ) (admissions dispatches : Database) (stamp now admittedBefore lease : Time)
      (limit : Nat) (locked : List UUID)
  | apply (worker : τ) (stamp : Time) (id : UUID) (evidence : OwnerEvidence)
  | expire (worker : τ) (now unknownBefore : Time) (limit : Nat)

section Histories

variable {τ : Type} (name : τ → String)

def RecoveryCall.perform (db : Database) : RecoveryCall τ → Except StoreError Database
  | .claim worker admissions dispatches stamp now admittedBefore lease limit locked => do
      let claimed ← Store.markStaleAndClaim admissions dispatches db stamp now admittedBefore
        (name worker) lease limit locked
      pure claimed.2
  | .apply worker stamp id evidence => Store.applyOwnerEvidence db stamp id (name worker) evidence
  | .expire _ now unknownBefore limit => Store.expireUnknown db db now unknownBefore limit

variable [DecidableEq τ] {name} {state : Cluster τ} {db after : Database}

theorem RecoveryCall.perform_statements {call : RecoveryCall τ} (settled : state.Settled db)
    (done : call.perform name db = .ok after) :
    ∃ final, (cluster name).Steps System.always state final ∧ final.Settled after := by
  cases call with
  | claim worker admissions dispatches stamp now admittedBefore lease limit locked =>
    simp only [RecoveryCall.perform, bind_eq_ok, pure_eq_ok] at done
    obtain ⟨claimed, claims, rfl⟩ := done
    obtain ⟨later, ticked, still, current⟩ := settled.tick name now
    obtain ⟨final, steps, ends⟩ := markStaleAndClaim_statements still current claims
    exact ⟨final, ticked.trans steps, ends⟩
  | apply worker stamp id evidence => exact applyOwnerEvidence_statements settled done
  | expire worker now unknownBefore limit =>
    obtain ⟨later, ticked, still, current⟩ := settled.tick name now
    obtain ⟨final, steps, ends⟩ := expireUnknown_statements still current worker done
    exact ⟨final, ticked.trans steps, ends⟩

/-- Every history of recovery transactions that commit one after the other, whoever runs
them, is a run of their statements between states without open transactions. -/
theorem recoveryCalls_refine {calls : List (RecoveryCall τ)} (settled : state.Settled db)
    (done : calls.foldlM (RecoveryCall.perform name) db = .ok after) :
    ∃ final, (cluster name).Steps System.always state final ∧ final.Settled after := by
  induction calls generalizing state db with
  | nil =>
    rw [List.foldlM_nil, pure_eq_ok] at done
    exact ⟨state, .refl, done ▸ settled⟩
  | cons call rest ih =>
    rw [List.foldlM_cons, bind_eq_ok] at done
    obtain ⟨next, performed, done⟩ := done
    obtain ⟨middle, first, between⟩ := RecoveryCall.perform_statements settled performed
    obtain ⟨final, others, ends⟩ := ih between done
    exact ⟨final, first.trans others, ends⟩

def Database.states (db : Database) : List (Option AttemptState) :=
  [1, 2].map fun id => (db.attempts.get id).map (·.state)

/-- Two lost searches are claimed; one runs out of time and the other is found to have failed. -/
theorem recoveryCalls_refine_twoLost :
    ∃ after final, (cluster fun worker => (sampleWorkers worker).workerId).Steps System.always
        ⟨.settled twoLostStore.db.attempts.get, fun _ => .idle, 0⟩ final ∧
      final.Settled after ∧ after.states = [some .unresolved, some .failed] := by
  let calls := [.claim 0 twoLostStore.db twoLostStore.db 0 (100 * second) 0 second 5 [],
    .apply 0 0 2 ⟨"second", .failed, "FAILED", "", 1, 0⟩,
    RecoveryCall.expire 1 (200 * second) (150 * second) 5]
  have checked : (calls.foldlM (RecoveryCall.perform fun worker => (sampleWorkers worker).workerId)
      twoLostStore.db).toOption.any (fun after =>
        decide (after.states = [some .unresolved, some .failed])) = true := by
    decide +kernel
  obtain ⟨after, found, states⟩ := (Option.any_eq_true _ _).mp checked
  obtain ⟨final, steps, ends⟩ := recoveryCalls_refine (Cluster.settled twoLostStore.db)
    (toOption_eq_some.mp found)
  exact ⟨after, final, steps, ends, of_decide_eq_true states⟩

end Histories

end OufMcp.Ledger
