import OufMcp.Ledger.Citations

/-!
# Runs with retention

The store together with its purges, from the migration on.  Attempt identifiers are
drawn by `uuid.New`, so the identifier of an attempt that was purged is not given
out again; nothing else is assumed of the callers.  In every state that is reached
`purge_terminal_attempt_graph` deletes what it picks without meeting a foreign key.
-/

namespace OufMcp.Ledger

open Relational Transition

/-! ## What a purge leaves -/

/-- The rows of some attempts are gone and every other attempt has the rows it had. -/
structure Drops (gone : UUID → Prop) (db after : Database) : Prop where
  holds : ∀ id rows, db.Holds id rows → ¬ gone id → after.Holds id rows
  absent : ∀ id, db.Absent id ∨ gone id → after.Absent id
  evidence : ∀ ref row, after.evidence.get ref = some row →
    db.evidence.get ref = some row ∧ ¬ gone row.attemptId
  activeDebt : ∀ window, after.activeDebt window = db.activeDebt window
  windows : ∀ id window, after.windows.get id = some window → db.windows.get id = some window

namespace Drops

variable {gone : UUID → Prop} {db after : Database}

theorem wellFormed (drops : Drops gone db after) (formed : db.WellFormed) : after.WellFormed := by
  constructor
  · intro id
    rcases formed.governed id with ⟨rows, held, sound⟩ | absent
    · by_cases dropped : gone id
      · exact .inr (drops.absent id (.inr dropped))
      · exact .inl ⟨rows, drops.holds id rows held dropped, sound⟩
    · exact .inr (drops.absent id (.inl absent))
  · intro ref row found
    obtain ⟨was, kept⟩ := drops.evidence ref row found
    obtain ⟨rows, held, bound⟩ := formed.inbox ref row was
    exact ⟨rows, drops.holds _ rows held kept, bound⟩

theorem origin (drops : Drops gone db after) (formed : db.WellFormed) {id : UUID} {rows : Rows}
    (held : after.Holds id rows) : db.Holds id rows := by
  rcases formed.governed id with ⟨old, was, -⟩ | absent
  · by_cases dropped : gone id
    · exact ((drops.absent id (.inr dropped)).not_holds held).elim
    · exact held.unique (drops.holds id old was dropped) ▸ was
  · exact ((drops.absent id (.inl absent)).not_holds held).elim

theorem allClosed (drops : Drops gone db after) (formed : db.WellFormed) (closed : db.AllClosed) :
    after.AllClosed :=
  fun id rows held => closed id rows (drops.origin formed held)

theorem cached (drops : Drops gone db after) (cached : db.Cached) : after.Cached := by
  intro id window found
  rw [drops.activeDebt]
  exact cached id window (drops.windows id window found)

theorem extend {last : Database} (drops : Drops gone db after)
    (rest : Drops (fun _ => False) after last) : Drops gone db last where
  holds id rows held kept :=
    rest.holds id rows (drops.holds id rows held kept) fun impossible => impossible
  absent id reason := rest.absent id (.inl (drops.absent id reason))
  evidence ref row found := drops.evidence ref row (rest.evidence ref row found).1
  activeDebt window := (rest.activeDebt window).trans (drops.activeDebt window)
  windows id window found := drops.windows id window (rest.windows id window found)

theorem precedes (drops : Drops gone db after) {earlier : Database}
    (precedes : earlier.Precedes db) : earlier.Precedes after := by
  intro id rows held
  rcases precedes id rows held with ⟨kept, there, same⟩ | absent
  · by_cases dropped : gone id
    · exact .inr (drops.absent id (.inr dropped))
    · exact .inl ⟨kept, drops.holds id kept there dropped, same⟩
  · exact .inr (drops.absent id (.inl absent))

end Drops

theorem Prunes.drops {gone : List UUID} {db after : Database} (prunes : Prunes gone db after) :
    Drops (· ∈ gone) db after where
  holds id rows held kept :=
    ⟨(prunes.attempts id _).mpr ⟨held.attempt, kept⟩,
      (prunes.contexts id _).mpr ⟨held.context, kept⟩,
      (prunes.reservations id _).mpr ⟨held.reservation, kept⟩,
      (prunes.claims id _).mpr ⟨held.claim, kept⟩,
      by rw [prunes.windows]; exact held.window,
      by rw [prunes.guards]; exact held.guard,
      (prunes.debts.get_eq fun _ => kept).trans held.debt⟩
  absent id reason := by
    have none {ρ : Type} {schema : Schema ρ} {table later : Table UUID schema}
        (restricts : table.Restricts later fun id _ => id ∉ gone)
        (was : table.get id = none ∨ id ∈ gone) : later.get id = none := by
      refine Option.eq_none_iff_forall_ne_some.mpr fun row found => ?_
      obtain ⟨stored, kept⟩ := (restricts id row).mp found
      rcases was with absent | dropped
      · cases absent.symm.trans stored
      · exact kept dropped
    exact ⟨none prunes.attempts (reason.imp_left (·.attempt)),
      none prunes.contexts (reason.imp_left (·.context)),
      none prunes.reservations (reason.imp_left (·.reservation)),
      none prunes.claims (reason.imp_left (·.claim)),
      none prunes.debts (reason.imp_left (·.debt))⟩
  evidence ref row found := (prunes.evidence ref row).mp found
  activeDebt := prunes.activeDebt
  windows id window found := prunes.windows ▸ found

theorem Trims.drops {before : Time} {db after : Database} (trims : Trims before db after) :
    Drops (fun _ => False) db after where
  holds id rows held _ :=
    ⟨by rw [trims.attempts]; exact held.attempt, by rw [trims.contexts]; exact held.context,
      by rw [trims.reservations]; exact held.reservation,
      by rw [trims.claims]; exact held.claim,
      trims.windows _ _ held.window (.inr (.inl ⟨id, rows.context, held.context, rfl⟩)),
      trims.guards _ _ held.guard (.inr ⟨id, rows.context, held.context, rfl⟩),
      by rw [trims.debts]; exact held.debt⟩
  absent id reason := by
    have absent := reason.resolve_right fun impossible => impossible
    exact ⟨by rw [trims.attempts]; exact absent.attempt,
      by rw [trims.contexts]; exact absent.context,
      by rw [trims.reservations]; exact absent.reservation,
      by rw [trims.claims]; exact absent.claim, by rw [trims.debts]; exact absent.debt⟩
  evidence ref row found := ⟨trims.evidence ▸ found, fun impossible => impossible⟩
  activeDebt window := by
    unfold Database.activeDebt
    rw [trims.debts]
  windows := trims.fromWindows

/-! ## Citations across a purge -/

theorem Prunes.cited {gone : List UUID} {db after : Database} (prunes : Prunes gone db after)
    (cited : db.Cited) : after.Cited := by
  have names {ref id : UUID} (named : db.Names ref id) (kept : id ∉ gone) : after.Names ref id := by
    obtain ⟨row, found, rfl⟩ := named
    exact ⟨row, (prunes.evidence ref row).mpr ⟨found, kept⟩, rfl⟩
  refine ⟨⟨?_, ?_⟩, ?_⟩
  · intro id debt ref found cites
    obtain ⟨was, kept⟩ := (prunes.debts id debt).mp found
    exact names (cited.debts id debt ref was cites) kept
  · intro key row found
    obtain ⟨was, kept⟩ := (prunes.adjustments key row).mp found
    exact names (cited.adjustments key row was) kept
  · intro key row found
    obtain ⟨was, kept⟩ := (prunes.incidents key row).mp found
    exact names (cited.incidents key row was) kept

theorem Trims.cited {before : Time} {db after : Database} (trims : Trims before db after)
    (cited : db.Cited) : after.Cited := by
  have names {ref id : UUID} (named : db.Names ref id) : after.Names ref id := by
    unfold Database.Names
    rw [trims.evidence]
    exact named
  refine ⟨⟨?_, ?_⟩, ?_⟩
  · rw [trims.debts]
    exact fun id debt ref found cites => names (cited.debts id debt ref found cites)
  · rw [trims.adjustments]
    exact fun key row found => names (cited.adjustments key row found)
  · rw [trims.incidents]
    exact fun key row found => names (cited.incidents key row found)

theorem refersToEvidence_eq_true {db : Database} {ref : UUID} :
    db.refersToEvidence ref = true ↔
      (∃ id debt, db.debts.get id = some debt ∧ debt.ownerEvidenceRef = some ref) ∨
      (∃ key row, db.adjustments.get key = some row ∧ row.ownerEvidenceRef = ref) ∨
      ∃ key row, db.incidents.get key = some row ∧ row.evidenceRef = ref := by
  simp only [Database.refersToEvidence, Bool.or_eq_true, Table.any_eq_true, decide_eq_true_eq,
    or_assoc]

theorem purgeOwnerEvidence_drops {db after : Database} {now : Time} {before : Option Time}
    {limit : Option Int} {chosen : List UUID} (cited : db.Cited)
    (done : Store.purgeOwnerEvidence db now before limit chosen = .ok after) :
    Drops (fun _ => False) db after ∧ after.Cited := by
  unfold Store.purgeOwnerEvidence at done
  simp only [bind_eq_ok, demand_eq_ok, pure_eq_ok, Prod.exists] at done
  obtain ⟨cutoff, size, -, evidence, deleted, rfl⟩ := done
  obtain ⟨fewer, kept⟩ := Table.get_of_delete? deleted
  have names {ref id : UUID} (named : db.Names ref id) (used : db.refersToEvidence ref = true) :
      ∃ row, evidence.get ref = some row ∧ row.attemptId = id := by
    obtain ⟨row, found, mine⟩ := named
    exact ⟨row, kept ref row found used, mine⟩
  refine ⟨⟨?_, ?_, ?_, fun _ => rfl, fun _ _ found => found⟩, ⟨⟨?_, ?_⟩, ?_⟩⟩
  · intro id rows held _
    exact ⟨held.1, held.2, held.3, held.4, held.5, held.6, held.7⟩
  · intro id reason
    have absent := reason.resolve_right fun impossible => impossible
    exact ⟨absent.1, absent.2, absent.3, absent.4, absent.5⟩
  · intro ref row found
    exact ⟨fewer ref row found, fun impossible => impossible⟩
  · intro id debt ref found cites
    exact names (cited.debts id debt ref found cites)
      (refersToEvidence_eq_true.mpr (.inl ⟨id, debt, found, cites⟩))
  · intro key row found
    exact names (cited.adjustments key row found)
      (refersToEvidence_eq_true.mpr (.inr (.inl ⟨key, row, found, rfl⟩)))
  · intro key row found
    exact names (cited.incidents key row found)
      (refersToEvidence_eq_true.mpr (.inr (.inr ⟨key, row, found, rfl⟩)))

theorem purgeAudit_drops (db : Database) (audit : List AuditEvent) :
    Drops (fun _ => False) db { db with audit } where
  holds id rows held _ := ⟨held.1, held.2, held.3, held.4, held.5, held.6, held.7⟩
  absent id reason := by
    have absent := reason.resolve_right fun impossible => impossible
    exact ⟨absent.1, absent.2, absent.3, absent.4, absent.5⟩
  evidence ref row found := ⟨found, fun impossible => impossible⟩
  activeDebt _ := rfl
  windows _ _ found := found

/-! ## The store with its purges -/

inductive RetentionEvent where
  | operation (operation : Operation)
  | purgeAttempts (now : Time) (before : Option Time) (limit : Option Int) (locked : List UUID)
  | purgeEvidence (now : Time) (before : Option Time) (limit : Option Int) (chosen : List UUID)
  | purgeAudit (now : Time) (before : Option Time) (limit : Option Int) (chosen : List Nat)

namespace RetentionEvent

def perform (state : StoreState) : RetentionEvent → Option Database
  | .operation call => state.perform call
  | .purgeAttempts now before limit locked =>
    (Store.purgeTerminalAttemptGraph state.db now before limit locked).toOption.map (·.2)
  | .purgeEvidence now before limit chosen =>
    (Store.purgeOwnerEvidence state.db now before limit chosen).toOption
  | .purgeAudit now before limit chosen =>
    (Store.purgeAuditEvents state.db now before limit chosen).toOption

/-- No attempt is admitted under the identifier of one that was purged. -/
def Fresh (state : StoreState) : RetentionEvent → Prop
  | .operation (.reserve _ fresh req) => ∀ past ∈ state.past,
      past.attempts.get (Store.AdmissionRequest.attemptIdOr req fresh.attemptId) ≠ none →
      state.db.attempts.get (Store.AdmissionRequest.attemptIdOr req fresh.attemptId) ≠ none
  | _ => True

/-- The first admission is fresh, and so is one whose attempt is still there. -/
theorem fresh_of_unpurged {state : StoreState} {now : Time} {fresh : Generated}
    {req : AdmissionRequest}
    (early : (state.past.isEmpty || (state.db.attempts.get
      (Store.AdmissionRequest.attemptIdOr req fresh.attemptId)).isSome) = true) :
    Fresh state (.operation (.reserve now fresh req)) := by
  intro past earlier _
  rw [Bool.or_eq_true, List.isEmpty_iff] at early
  rcases early with none | stored
  · rw [none] at earlier
    cases earlier
  · exact Option.ne_none_iff_isSome.mpr stored

end RetentionEvent

def retention : System StoreState RetentionEvent where
  initial := store.initial
  step state event := some (match event.perform state with
    | some db => ⟨db, state.past ++ [state.db]⟩
    | none => state)

/-- The invariant of the store with its purges. -/
structure StoreState.Retained (state : StoreState) : Prop where
  sound : state.Sound
  closed : state.db.AllClosed
  cited : state.db.Cited

theorem StoreState.initial_retained (manifests : List String) :
    (StoreState.initial manifests).Retained where
  sound := (StoreState.initial_valid manifests).sound
  closed id rows held := by cases held.attempt
  cited := by
    refine ⟨⟨?_, ?_⟩, ?_⟩
    · exact nofun
    · exact nofun
    · exact nofun

/-! ### Operations -/

theorem Operation.reserve_of_allows {operation : Operation}
    (allowed : operation.allows .admission) :
    ∃ now fresh req, operation = .reserve now fresh req := by
  cases operation with
  | reserve now fresh req => exact ⟨now, fresh, req, rfl⟩
  | _ => simp [Operation.allows, Kind.stale] at allowed

theorem perform_precedes {state : StoreState} {operation : Operation} {db past : Database}
    (sound : state.Sound) (fresh : RetentionEvent.Fresh state (.operation operation))
    (performed : state.perform operation = some db) (member : past ∈ state.past) :
    past.Precedes db := by
  have earlier := (sound.earlier past member).2
  cases operation with
  | reserve now drawn req =>
    obtain ⟨decision, done⟩ := map_snd_toOption performed
    rcases reserveOnce_cases sound.formed done with
      ⟨-, rfl⟩ | ⟨-, ⟨-, drawnId⟩, middle, rows, moves, admits⟩
    · exact earlier
    · have quiet : ∀ kind, kind = Kind.prepare → kind ≠ .admission := by
        rintro _ rfl impossible
        cases impossible
      have prepared := moves.precedes sound.formed quiet earlier
      intro id old held
      have differ : id ≠ decision.attemptId := by
        rintro rfl
        have was : past.attempts.get decision.attemptId ≠ none := by
          rw [held.attempt]
          exact Option.some_ne_none _
        rw [drawnId] at was
        obtain ⟨attempt, found⟩ := Option.ne_none_iff_exists'.mp (fresh past member was)
        rw [← drawnId] at found
        obtain ⟨own, stored, -⟩ := sound.formed.holds_of_attempt found
        obtain ⟨later, still, -⟩ := moves.extends sound.formed _ own stored
        exact admits.absent.not_holds still
      rcases prepared id old held with ⟨kept, there, same⟩ | absent
      · obtain ⟨later, still, also⟩ := (Move.admission admits).extends id kept there
        exact .inl ⟨later, still, same.trans also⟩
      · exact .inr (admits.absent_of_ne differ absent)
  | _ =>
    refine (perform_moves sound performed).precedes sound.formed ?_ earlier
    rintro kind allowed rfl
    obtain ⟨now, fresh, req, impossible⟩ := Operation.reserve_of_allows allowed
    cases impossible

theorem StoreState.Retained.operation {state : StoreState} {operation : Operation} {db : Database}
    (retained : state.Retained) (fresh : RetentionEvent.Fresh state (.operation operation))
    (performed : state.perform operation = some db) :
    StoreState.Retained ⟨db, state.past ++ [state.db]⟩ := by
  have sound := retained.sound
  have moves := perform_moves sound performed
  refine ⟨⟨moves.wellFormed sound.formed, ?_, moves.cached sound.formed sound.cached⟩,
    moves.allClosed sound.formed retained.closed,
    moves.cited sound.formed (perform_reports sound performed) retained.cited⟩
  intro past member
  rcases List.mem_append.mp member with before | last
  · exact ⟨(sound.earlier past before).1, perform_precedes sound fresh performed before⟩
  · rw [List.mem_singleton.mp last]
    exact ⟨sound.formed, (moves.extends sound.formed).precedes⟩

/-! ### Purges -/

theorem StoreState.Retained.drop {state : StoreState} {gone : UUID → Prop} {db : Database}
    (retained : state.Retained) (drops : Drops gone state.db db) (cited : db.Cited) :
    StoreState.Retained ⟨db, state.past ++ [state.db]⟩ := by
  have sound := retained.sound
  refine ⟨⟨drops.wellFormed sound.formed, ?_, drops.cached sound.cached⟩,
    drops.allClosed sound.formed retained.closed, cited⟩
  intro past member
  rcases List.mem_append.mp member with before | last
  · exact ⟨(sound.earlier past before).1, drops.precedes (sound.earlier past before).2⟩
  · rw [List.mem_singleton.mp last]
    exact ⟨sound.formed, drops.precedes (Database.Extends.refl state.db).precedes⟩

theorem purge_effects {db : Database} (formed : db.WellFormed) (closed : db.AllClosed)
    (cited : db.Cited) {before : Time} {picked : List UUID}
    (expired : ∀ id ∈ picked, db.Expired before id) :
    ∃ middle after, Store.deleteAttempts db picked = .ok middle ∧
      Store.deleteParents middle before = .ok after ∧
      Prunes picked db middle ∧ Trims before middle after := by
  have settled : ∀ id ∈ picked, ∀ reservation, db.reservations.get id = some reservation →
      reservation.state.closed := by
    intro id member reservation found
    have old := expired id member
    obtain ⟨attempt, completed, stored, terminal, -⟩ := old.finished
    obtain ⟨rows, held, rfl⟩ := formed.holds_of_attempt stored
    obtain rfl := Option.some.inj (held.reservation.symm.trans found)
    rcases (closed id rows held).finished (AttemptState.terminal_iff.mpr terminal) with
      done | ⟨debt, owed, active⟩
    · exact done
    · exact absurd active (old.resolved debt (held.debt.trans owed))
  obtain ⟨middle, deleted, prunes⟩ := deleteAttempts_ok cited expired settled
  obtain ⟨after, trimmed, trims⟩ := deleteParents_ok (prunes.drops.wellFormed formed) before
  exact ⟨middle, after, deleted, trimmed, prunes, trims⟩

theorem StoreState.Retained.purgeAttempts_drops {state : StoreState} {now : Time}
    {before : Option Time} {limit : Option Int} {locked : List UUID} {count : Nat} {db : Database}
    (retained : state.Retained)
    (done : Store.purgeTerminalAttemptGraph state.db now before limit locked = .ok (count, db)) :
    ∃ gone, Drops gone state.db db ∧ db.Cited := by
  unfold Store.purgeTerminalAttemptGraph at done
  simp only [bind_eq_ok, pure_eq_ok, Prod.exists, Prod.mk.injEq] at done
  obtain ⟨cutoff, size, -, middle, deleted, after, trimmed, -, rfl⟩ := done
  have sound := retained.sound
  obtain ⟨first, last, deletes, trims, prunes, trimmedTo⟩ := purge_effects sound.formed
    retained.closed retained.cited
    (fun id (member : id ∈ Store.selectPurgeable state.db cutoff size locked) =>
      selectPurgeable_expired member)
  obtain rfl := Except.ok.inj (deletes.symm.trans deleted)
  obtain rfl := Except.ok.inj (trims.symm.trans trimmed)
  exact ⟨_, prunes.drops.extend trimmedTo.drops, trimmedTo.cited (prunes.cited retained.cited)⟩

/-- What is not an operation of the ledger only drops rows. -/
theorem StoreState.Retained.perform_cases {state : StoreState} {event : RetentionEvent}
    {db : Database} (retained : state.Retained) (performed : event.perform state = some db) :
    (∃ operation, event = .operation operation) ∨ ∃ gone, Drops gone state.db db ∧ db.Cited := by
  cases event with
  | operation operation => exact .inl ⟨operation, rfl⟩
  | purgeAttempts now cutoff limit locked =>
    obtain ⟨count, done⟩ := map_snd_toOption performed
    exact .inr (retained.purgeAttempts_drops done)
  | purgeEvidence now cutoff limit chosen =>
    exact .inr ⟨_, purgeOwnerEvidence_drops retained.cited (toOption_eq_some.mp performed)⟩
  | purgeAudit now cutoff limit chosen =>
    have done := toOption_eq_some.mp performed
    unfold Store.purgeAuditEvents at done
    simp only [bind_eq_ok, pure_eq_ok, Prod.exists] at done
    obtain ⟨_, _, -, rfl⟩ := done
    have cited := retained.cited
    exact .inr ⟨_, purgeAudit_drops state.db _, ⟨cited.debts, cited.adjustments⟩, cited.incidents⟩

theorem retention_retained {state : StoreState}
    (reached : retention.Reachable RetentionEvent.Fresh state) : state.Retained := by
  refine reached.induction ?_ ?_
  · rintro _ ⟨manifests, -, rfl⟩
    exact StoreState.initial_retained manifests
  · rintro before event after - retained fresh stepped
    obtain rfl := Option.some.inj stepped
    cases performed : event.perform before with
    | none => exact retained
    | some db =>
      rcases retained.perform_cases performed with ⟨operation, rfl⟩ | ⟨gone, drops, cited⟩
      · exact retained.operation fresh performed
      · exact retained.drop drops cited

/-! ## What the purge of the attempt graph does -/

/-- No row of any relation is about the attempt. -/
structure Database.Forgets (db : Database) (id : UUID) : Prop where
  attempt : db.attempts.get id = none
  context : db.contexts.get id = none
  reservation : db.reservations.get id = none
  claim : db.claims.get id = none
  debt : db.debts.get id = none
  evidence : ∀ ref row, db.evidence.get ref = some row → row.attemptId ≠ id
  adjustments : ∀ key row, db.adjustments.get key = some row → row.attemptId ≠ id
  incidents : ∀ key row, db.incidents.get key = some row → row.attemptId ≠ id
  audit : ∀ event ∈ db.audit, event.attemptId ≠ some id

/-- The rows about one attempt are the same in both databases. -/
structure Database.SameRows (db after : Database) (id : UUID) : Prop where
  attempt : after.attempts.get id = db.attempts.get id
  context : after.contexts.get id = db.contexts.get id
  reservation : after.reservations.get id = db.reservations.get id
  claim : after.claims.get id = db.claims.get id
  debt : after.debts.get id = db.debts.get id
  evidence : ∀ ref row, row.attemptId = id →
    (after.evidence.get ref = some row ↔ db.evidence.get ref = some row)
  adjustments : ∀ key row, row.attemptId = id →
    (after.adjustments.get key = some row ↔ db.adjustments.get key = some row)
  incidents : ∀ key row, row.attemptId = id →
    (after.incidents.get key = some row ↔ db.incidents.get key = some row)
  audit : after.audit = db.audit

/-- A purge up to a cutoff took finished attempts with all their rows, and left the rows of
every other attempt and every parent that is recent or referred to. -/
structure Purged (before : Time) (db after : Database) : Prop where
  removed : ∀ id, db.attempts.get id ≠ none → after.attempts.get id = none →
    db.Expired before id ∧ after.Forgets id
  others : ∀ id, ¬ (db.attempts.get id ≠ none ∧ after.attempts.get id = none) →
    db.SameRows after id
  windows : ∀ id window, db.windows.get id = some window →
    before ≤ window.windowEnd ∨ after.WindowUsed id → after.windows.get id = some window
  groups : ∀ id group, db.groups.get id = some group →
    db.OpenWindow before group.budgetWindowId ∨ after.GroupUsed id →
    after.groups.get id = some group
  guards : ∀ id guard, db.guards.get id = some guard →
    (∃ group, db.groups.get id = some group ∧ db.OpenWindow before group.budgetWindowId) ∨
      after.GroupUsed id → after.guards.get id = some guard
  objects : ∀ key object, db.objects.get key = some object →
    db.OpenWindow before key.budgetWindowId ∨ after.WindowUsed key.budgetWindowId →
    after.objects.get key = some object

section Effects

variable {before : Time} {picked : List UUID} {db middle after : Database}

theorem sameRows_of_kept (prunes : Prunes picked db middle) (trims : Trims before middle after)
    {id : UUID} (kept : id ∉ picked) : db.SameRows after id where
  attempt := by rw [trims.attempts]; exact prunes.attempts.get_eq fun _ => kept
  context := by rw [trims.contexts]; exact prunes.contexts.get_eq fun _ => kept
  reservation := by rw [trims.reservations]; exact prunes.reservations.get_eq fun _ => kept
  claim := by rw [trims.claims]; exact prunes.claims.get_eq fun _ => kept
  debt := by rw [trims.debts]; exact prunes.debts.get_eq fun _ => kept
  evidence := by
    rintro ref row rfl
    rw [trims.evidence, prunes.evidence ref row]
    exact and_iff_left kept
  adjustments := by
    rintro key row rfl
    rw [trims.adjustments, prunes.adjustments key row]
    exact and_iff_left kept
  incidents := by
    rintro key row rfl
    rw [trims.incidents, prunes.incidents key row]
    exact and_iff_left kept
  audit := by rw [trims.audit, prunes.audit]

theorem forgets_of_picked (prunes : Prunes picked db middle) (trims : Trims before middle after)
    {id : UUID} (member : id ∈ picked) (expired : db.Expired before id) : after.Forgets id := by
  have absent := (prunes.drops.extend trims.drops).absent id (.inr member)
  refine ⟨absent.attempt, absent.context, absent.reservation, absent.claim, absent.debt,
    ?_, ?_, ?_, ?_⟩
  · rw [trims.evidence]
    rintro ref row found rfl
    exact ((prunes.evidence ref row).mp found).2 member
  · rw [trims.adjustments]
    rintro key row found rfl
    exact ((prunes.adjustments key row).mp found).2 member
  · rw [trims.incidents]
    rintro key row found rfl
    exact ((prunes.incidents key row).mp found).2 member
  · rw [trims.audit, prunes.audit]
    exact expired.unaudited

theorem Trims.windowUsed (trims : Trims before middle after) {id : UUID}
    (used : after.WindowUsed id) : middle.WindowUsed id := by
  unfold Database.WindowUsed at used ⊢
  rwa [trims.contexts, trims.reservations, trims.debts, trims.adjustments] at used

theorem Trims.groupUsed (trims : Trims before middle after) {id : UUID}
    (used : after.GroupUsed id) : middle.GroupUsed id := by
  unfold Database.GroupUsed at used ⊢
  rwa [trims.contexts] at used

theorem purged_of_effects (prunes : Prunes picked db middle) (trims : Trims before middle after)
    (expired : ∀ id ∈ picked, db.Expired before id) : Purged before db after := by
  have recent {id : UUID} (late : db.OpenWindow before id) : middle.OpenWindow before id := by
    unfold Database.OpenWindow
    rw [prunes.windows]
    exact late
  refine ⟨?_, ?_, ?_, ?_, ?_, ?_⟩
  · intro id present gone
    have member : id ∈ picked := by
      by_contra kept
      exact present ((sameRows_of_kept prunes trims kept).attempt.symm.trans gone)
    exact ⟨expired id member, forgets_of_picked prunes trims member (expired id member)⟩
  · intro id kept
    refine sameRows_of_kept prunes trims fun member => kept ⟨?_, ?_⟩
    · obtain ⟨attempt, completed, found, -⟩ := (expired id member).finished
      exact Option.ne_none_iff_exists'.mpr ⟨attempt, found⟩
    · exact (forgets_of_picked prunes trims member (expired id member)).attempt
  · intro id window found reason
    exact trims.windows id window (prunes.windows ▸ found) (reason.imp_right trims.windowUsed)
  · intro id group found reason
    exact trims.groups id group (prunes.groups ▸ found) (reason.imp recent trims.groupUsed)
  · intro id guard found reason
    refine trims.guards id guard (prunes.guards ▸ found) (reason.imp ?_ trims.groupUsed)
    rintro ⟨group, stored, late⟩
    exact ⟨group, prunes.groups ▸ stored, recent late⟩
  · intro key object found reason
    exact trims.objects key object (prunes.objects ▸ found) (reason.imp recent trims.windowUsed)

end Effects

/-- In every state of the store with its purges the purge of the attempt graph succeeds,
whichever attempts are locked, and takes nothing that is not finished, old and its own. -/
theorem purgeTerminalAttemptGraph_safe {state : StoreState}
    (reached : retention.Reachable RetentionEvent.Fresh state) {now before : Time}
    (past : before < now) {limit : Int} (bounded : 1 ≤ limit ∧ limit ≤ 1000)
    (locked : List UUID) :
    ∃ count after,
      Store.purgeTerminalAttemptGraph state.db now (some before) (some limit) locked =
        .ok (count, after) ∧
      Purged before state.db after := by
  have retained := retention_retained reached
  have expired : ∀ id ∈ Store.selectPurgeable state.db before limit.toNat locked,
      state.db.Expired before id := fun id member => selectPurgeable_expired member
  obtain ⟨middle, after, deleted, trimmed, prunes, trims⟩ :=
    purge_effects retained.sound.formed retained.closed retained.cited expired
  have batch : Store.retentionBatch 1000 now (some before) (some limit) =
      .ok (before, limit.toNat) := by
    unfold Store.retentionBatch
    simp only [bind_eq_ok, demand_eq_ok, ensure_eq_ok, exists_const, pure_eq_ok, Option.some.injEq,
      exists_eq_left']
    exact ⟨bounded, past, trivial⟩
  refine ⟨(Store.selectPurgeable state.db before limit.toNat locked).length, after, ?_,
    purged_of_effects prunes trims expired⟩
  unfold Store.purgeTerminalAttemptGraph
  simp only [bind_eq_ok, pure_eq_ok, Prod.exists, Prod.mk.injEq]
  exact ⟨before, limit.toNat, batch, middle, deleted, after, trimmed, rfl, rfl⟩

def answeredSearch : List RetentionEvent :=
  [.operation (.reserve 0 ⟨10, 11, 0⟩ ((searchCall "first" "one" 5).admission 1)),
    .operation (.dispatch 0 1 "request" second 0),
    .operation (.reconcile second 1 ⟨1, 2, 10⟩ ⟨"OK", true, "request"⟩)]

/-- An attempt is purged with its window once both are old. -/
theorem purgeTerminalAttemptGraph_safe_answeredSearch :
    ∃ state count after, retention.Reachable RetentionEvent.Fresh state ∧
      Store.purgeTerminalAttemptGraph state.db (1000000 * second) (some (999999 * second))
        (some 10) [] = .ok (count, after) ∧
      Purged (999999 * second) state.db after ∧ count = 1 ∧ after.attempts.get 1 = none := by
  have sound : ∀ event ∈ answeredSearch, ∀ state : StoreState,
      (state.past.isEmpty || (state.db.attempts.get 1).isSome) = true →
      RetentionEvent.Fresh state event := by
    intro event member state early
    rcases List.mem_cons.mp member with rfl | later
    · exact RetentionEvent.fresh_of_unpurged early
    · rcases List.mem_cons.mp later with rfl | last
      · trivial
      · rw [List.mem_singleton.mp last]
        trivial
  obtain ⟨state, -, reached, checked⟩ := System.exists_reachable sound sampleStore_initial
    (show (retention.replay _ _ answeredSearch).any (fun state =>
      (Store.purgeTerminalAttemptGraph state.db (1000000 * second) (some (999999 * second))
        (some 10) []).toOption.any fun result : Nat × Database =>
          decide (result.1 = 1) && (result.2.attempts.get 1).isNone) = true by decide +kernel)
  obtain ⟨count, after, purged, effects⟩ := purgeTerminalAttemptGraph_safe reached
    (show 999999 * second < 1000000 * second by decide)
    (show (1 : Int) ≤ 10 ∧ 10 ≤ 1000 by decide) []
  rw [purged] at checked
  simp only [Except.toOption, Option.any_some, Bool.and_eq_true, decide_eq_true_eq,
    Option.isNone_iff_eq_none] at checked
  exact ⟨state, count, after, reached, purged, effects, checked⟩

end OufMcp.Ledger
