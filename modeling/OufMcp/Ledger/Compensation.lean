import OufMcp.Ledger.Steps

/-!
# Late compensation

Evidence is spent once, a debt is resolved once and by evidence of its own
attempt, an attempt gets one adjustment, and the objects a window has consumed are
those recorded for it as a set plus those its settled reservations reported.
-/

namespace OufMcp.Ledger

open Relational Transition

variable {ref id : UUID} {old new : Rows} {debt : ObjectDebt}

/-! ## What is spent stays spent -/

/-- Evidence that was spent and debts that were resolved are as they were. -/
structure Database.Spent (before after : Database) : Prop where
  evidence : ∀ ref row, before.evidence.get ref = some row → row.evidenceState ≠ .verified →
    after.evidence.get ref = some row
  debts : ∀ id debt, before.debts.get id = some debt → debt.debtState = .resolved →
    after.debts.get id = some debt

theorem Database.Spent.refl (db : Database) : db.Spent db :=
  ⟨fun _ _ found _ => found, fun _ _ found _ => found⟩

theorem Database.Spent.trans {a b c : Database} (first : a.Spent b) (second : b.Spent c) :
    a.Spent c where
  evidence ref row found spent := second.evidence ref row (first.evidence ref row found spent) spent
  debts id debt found resolved := second.debts id debt (first.debts id debt found resolved) resolved

theorem evidence_spent {before after : Table UUID ownerEvidenceInbox} {ref other : UUID}
    {new row : InboxEvidence} (put : before.Puts ref new after)
    (unspent : ∀ old, before.get ref = some old → old.evidenceState = .verified)
    (found : before.get other = some row) (spent : row.evidenceState ≠ .verified) :
    after.get other = some row := by
  have differ : other ≠ ref := by
    rintro rfl
    exact spent (unspent row found)
  exact (put.get_of_ne differ).trans found

theorem Change.debt_of_resolved {kind : Kind} (change : Change kind old new)
    (owed : old.debt = some debt) (resolved : debt.debtState = .resolved) :
    new.debt = some debt := by
  have inactive : ∀ {other : ObjectDebt}, old.debt = some other → other.debtState ≠ .active := by
    intro other also active
    obtain rfl := Option.some.inj (owed.symm.trans also)
    rw [resolved] at active
    cases active
  cases change with
  | lose now opened running reserved bound opening =>
    rcases opening with ⟨-, absent, -⟩ | ⟨-, rfl⟩
    · cases absent.symm.trans owed
    · exact owed
  | compensateUnresolved stamp ref inserted terminal dispatchState code resultRef also unresolved
      held active =>
    exact absurd active (inactive held)
  | compensateUnknown stamp ref inserted terminal code resultRef also unknown uncertain lost held
      active =>
    exact absurd active (inactive held)
  | _ => exact owed

theorem Touches.debts_spent {before after : Database} {kind : Kind}
    (touch : Touches id before after old new) (change : Change kind old new) {other : UUID}
    (found : before.debts.get other = some debt) (resolved : debt.debtState = .resolved) :
    after.debts.get other = some debt := by
  by_cases same : other = id
  · subst same
    rw [touch.debt_get]
    exact change.debt_of_resolved (touch.held.debt.symm.trans found) resolved
  · exact (touch.debt_of_ne same).trans found

theorem Move.spent {kind : Kind} {before after : Database} (move : Move kind before after) :
    before.Spent after := by
  cases move with
  | admission admits =>
    exact ⟨by rw [admits.evidence]; exact fun _ _ found _ => found,
      by rw [admits.debts]; exact fun _ _ found _ => found⟩
  | rewrite rewrites =>
    exact ⟨by rw [rewrites.evidence]; exact fun _ _ found _ => found,
      fun _ _ found resolved => rewrites.touch.debts_spent rewrites.change found resolved⟩
  | ingest ref row evidence held bound fresh verified put =>
    refine ⟨fun other found stored spent => evidence_spent put ?_ stored spent,
      fun _ _ found _ => found⟩
    intro old was
    cases fresh.symm.trans was
  | violate stamp found verified touch change put objects adjustments =>
    refine ⟨fun other row stored spent => evidence_spent put ?_ stored spent,
      fun _ _ owed resolved => touch.debts_spent change owed resolved⟩
    intro old was
    obtain rfl := Option.some.inj (found.symm.trans was)
    exact verified
  | compensate stamp found verified touch change put counted unadjusted adjusts adjustments =>
    refine ⟨fun other row stored spent => evidence_spent put ?_ stored spent,
      fun _ _ owed resolved => touch.debts_spent change owed resolved⟩
    intro old was
    obtain rfl := Option.some.inj (found.symm.trans was)
    exact verified
  | _ => exact ⟨fun _ _ found _ => found, fun _ _ found _ => found⟩

theorem step_spent {state next : State} {event : Event} (valid : state.Valid)
    (stepped : state.step event = some next) : state.db.Spent next.db :=
  ((step_moves valid stepped).induction valid.formed Database.Spent.refl
    (fun _ _ _ => Database.Spent.trans) fun _ _ _ _ _ move => move.spent).2

theorem steps_spent {guard : State → Event → Prop} {state later : State}
    (reached : runtime.Reachable guard state) (steps : runtime.Steps guard state later) :
    state.db.Spent later.db :=
  System.Steps.induction (R := fun source target => source.db.Spent target.db) reached steps
    (fun state => .refl state.db) (fun _ _ _ => Database.Spent.trans)
    fun _ _ _ before _ stepped => step_spent (reachable_valid before) stepped

theorem reachable_past_spent {guard : State → Event → Prop} {state : State}
    (reached : runtime.Reachable guard state) : ∀ past ∈ state.past, past.Spent state.db := by
  refine reached.induction (P := fun state => ∀ past ∈ state.past, past.Spent state.db) ?_ ?_
  · rintro _ ⟨manifests, -, rfl⟩
    intro past impossible
    cases impossible
  · intro before event after earlier remembered _ stepped past member
    have spent := step_spent (reachable_valid earlier) stepped
    rcases step_past (reachable_valid earlier) stepped with same | longer
    · exact (remembered past (same ▸ member)).trans spent
    · rw [longer] at member
      rcases List.mem_append.mp member with older | last
      · exact (remembered past older).trans spent
      · rw [List.mem_singleton.mp last]
        exact spent

theorem reachable_snapshot_spent {guard : State → Event → Prop} {state : State}
    (reached : runtime.Reachable guard state) (seen : Nat) :
    (state.snapshot seen).Spent state.db := by
  unfold State.snapshot
  cases found : state.past[seen]? with
  | none => exact .refl _
  | some past => exact reachable_past_spent reached past (List.mem_of_getElem? found)

/-! ## Objects as a set -/

def BudgetReservation.reported (reservation : BudgetReservation) : Int :=
  if reservation.state = .reconciled then reservation.actualDistinctObjects.getD 0 else 0

def Kind.inserted : Kind → Int
  | .compensate _ inserted => inserted
  | _ => 0

/-- A window consumes what its reservations report and what is new in its set. -/
theorem Change.consumed {kind : Kind} (change : Change kind old new) :
    new.window.consumedDistinctObjects + old.reservation.reported =
      old.window.consumedDistinctObjects + new.reservation.reported + kind.inserted := by
  unfold BudgetReservation.reported
  cases change with
  | settle actual outcome stamp unsettled objects =>
    simp [BudgetWindow.settle, BudgetWindow.consume, BudgetWindow.release,
      BudgetReservation.reconciled, unsettled, Kind.inserted]
  | releaseAdmission stamp admitted undispatched reserved bound =>
    simp [BudgetWindow.release, BudgetReservation.releaseUnsent, reserved, Kind.inserted]
  | lose now debt running reserved bound opened =>
    simp [BudgetWindow.moveToDebt, BudgetReservation.lose, reserved, Kind.inserted]
  | recover evidence stamp unknown uncertain lost calls bytes objects blocked =>
    simp [BudgetWindow.recover, BudgetReservation.recover, uncertain, Kind.inserted]
  | expire now unknown uncertain lost =>
    simp [BudgetWindow.recover, BudgetReservation.expire, uncertain, Kind.inserted]
  | compensateUnresolved stamp ref inserted terminal =>
    simp only [BudgetWindow.compensate, Kind.inserted]
    omega
  | compensateUnknown stamp ref inserted terminal code resultRef debt unknown uncertain =>
    simp [BudgetWindow.compensate, BudgetWindow.release, BudgetReservation.releaseProven,
      uncertain, Kind.inserted]
  | dispatch | hold | violate => exact (add_zero _).symm

/-- A debt that is resolved after a change was so before, or the change resolved it. -/
theorem Change.resolved_origin {kind : Kind} (change : Change kind old new)
    (owed : new.debt = some debt) (resolved : debt.debtState = .resolved) :
    old.debt = some debt ∨ ∃ ref inserted, kind = .compensate ref inserted ∧
      debt.ownerEvidenceRef = some ref := by
  cases change with
  | lose now opened running reserved bound opening =>
    rcases opening with ⟨-, -, rfl⟩ | ⟨-, rfl⟩
    · cases owed
      cases resolved
    · exact .inl owed
  | compensateUnresolved stamp ref inserted =>
    cases owed
    exact .inr ⟨ref, inserted, rfl, rfl⟩
  | compensateUnknown stamp ref inserted =>
    cases owed
    exact .inr ⟨ref, inserted, rfl, rfl⟩
  | _ => exact .inl owed

theorem Change.compensates {inserted : Int} (change : Change (.compensate ref inserted) old new) :
    (∃ debt, old.debt = some debt ∧ debt.debtState = .active) ∧
      ∃ debt, new.debt = some debt ∧ debt.debtState = .resolved := by
  cases change with
  | compensateUnresolved stamp _ _ terminal dispatchState code resultRef debt unresolved owed
      active =>
    exact ⟨⟨debt, owed, active⟩, _, rfl, rfl⟩
  | compensateUnknown stamp _ _ terminal code resultRef debt unknown uncertain lost owed active =>
    exact ⟨⟨debt, owed, active⟩, _, rfl, rfl⟩

/-- One adjustment per attempt, resolved debts with their evidence, and consumed objects
counted as a set. -/
structure Database.Compensated (db : Database) : Prop where
  adjusted : ∀ key adjustment, db.adjustments.get key = some adjustment →
    ∃ debt, db.debts.get adjustment.attemptId = some debt ∧ debt.debtState = .resolved
  single : ∀ one two first second, db.adjustments.get one = some first →
    db.adjustments.get two = some second → first.attemptId = second.attemptId → one = two
  resolved : ∀ id debt, db.debts.get id = some debt → debt.debtState = .resolved →
    ∃ ref row, debt.ownerEvidenceRef = some ref ∧ db.evidence.get ref = some row ∧
      row.attemptId = id ∧ row.evidenceState = .consumed
  counted : ∀ id window, db.windows.get id = some window →
    window.consumedDistinctObjects =
      objectsIn db.objects id + db.total id BudgetReservation.reported
  vacant : ∀ id, db.windows.get id = none → objectsIn db.objects id = 0

theorem Database.migrated_compensated (manifests : List String) :
    (Database.migrated manifests).Compensated where
  adjusted key adjustment found := by cases found
  single one two first second found := by cases found
  resolved id debt found := by cases found
  counted id window found := by cases found
  vacant _ _ := rfl

section Moves

variable {before after : Database}

theorem Database.Compensated.adjusted_later (compensated : before.Compensated)
    (spent : before.Spent after) {key : String} {adjustment : BudgetAdjustment}
    (found : before.adjustments.get key = some adjustment) :
    ∃ debt, after.debts.get adjustment.attemptId = some debt ∧ debt.debtState = .resolved := by
  obtain ⟨debt, owed, resolved⟩ := compensated.adjusted key adjustment found
  exact ⟨debt, spent.debts _ _ owed resolved, resolved⟩

theorem Database.Compensated.resolved_later (compensated : before.Compensated)
    (spent : before.Spent after) (found : before.debts.get id = some debt)
    (resolved : debt.debtState = .resolved) :
    ∃ ref row, debt.ownerEvidenceRef = some ref ∧ after.evidence.get ref = some row ∧
      row.attemptId = id ∧ row.evidenceState = .consumed := by
  obtain ⟨ref, row, named, stored, mine, consumed⟩ := compensated.resolved id debt found resolved
  exact ⟨ref, row, named, spent.evidence ref row stored (by rw [consumed]; decide), mine, consumed⟩

theorem Touches.counted {kind : Kind} (touch : Touches id before after old new)
    (change : Change kind old new) (formed : before.WellFormed) (compensated : before.Compensated)
    (objects : ∀ window, objectsIn after.objects window = objectsIn before.objects window +
      if window = old.context.budgetWindowId then kind.inserted else 0) {key : UUID}
    {window : BudgetWindow} (found : after.windows.get key = some window) :
    window.consumedDistinctObjects =
      objectsIn after.objects key + after.total key BudgetReservation.reported := by
  have moved := touch.total change (formed.sound touch.held) key BudgetReservation.reported
  rw [objects]
  by_cases same : old.context.budgetWindowId = key
  · subst same
    obtain rfl := Option.some.inj (touch.windows.get_self.symm.trans found)
    have sum := compensated.counted _ _ touch.held.window
    have delta := change.consumed
    simp only [if_true] at moved ⊢
    omega
  · rw [touch.windows.get_of_ne (Ne.symm same)] at found
    have sum := compensated.counted key window found
    simp only [if_neg same, add_zero] at moved
    rw [if_neg (Ne.symm same)]
    omega

theorem Touches.vacant {inserted : Int} (touch : Touches id before after old new)
    (compensated : before.Compensated)
    (objects : ∀ window, objectsIn after.objects window = objectsIn before.objects window +
      if window = old.context.budgetWindowId then inserted else 0) {key : UUID}
    (missing : after.windows.get key = none) : objectsIn after.objects key = 0 := by
  have differ : key ≠ old.context.budgetWindowId := by
    rintro rfl
    cases touch.windows.get_self.symm.trans missing
  rw [objects, if_neg differ, add_zero]
  exact compensated.vacant key ((touch.windows.get_of_ne differ).symm.trans missing)

theorem Touches.compensated {id : UUID} {kind : Kind} {old new : Rows}
    (touch : Touches id before after old new) (change : Change kind old new)
    (formed : before.WellFormed) (compensated : before.Compensated) (spent : before.Spent after)
    (other : ∀ ref inserted, kind ≠ .compensate ref inserted)
    (objects : after.objects = before.objects)
    (adjustments : after.adjustments = before.adjustments) : after.Compensated := by
  have counts : ∀ window, objectsIn after.objects window = objectsIn before.objects window +
      if window = old.context.budgetWindowId then kind.inserted else 0 := by
    intro window
    rw [objects]
    cases kind with
    | compensate ref inserted => exact absurd rfl (other ref inserted)
    | _ => simp [Kind.inserted]
  constructor
  · rw [adjustments]
    exact fun key adjustment found => compensated.adjusted_later spent found
  · rw [adjustments]
    exact compensated.single
  · intro key debt found resolved
    by_cases same : key = id
    · subst same
      rcases change.resolved_origin (touch.debt_get.symm.trans found) resolved with
        earlier | ⟨ref, inserted, impossible, -⟩
      · exact compensated.resolved_later spent (touch.held.debt.trans earlier) resolved
      · exact absurd impossible (other ref inserted)
    · exact compensated.resolved_later spent ((touch.debt_of_ne same).symm.trans found) resolved
  · intro key window found
    exact touch.counted change formed compensated counts found
  · exact fun key missing => touch.vacant compensated counts missing

theorem Touches.compensated_by {inserted : Int} {key : String} {adjustment : BudgetAdjustment}
    (touch : Touches id before after old new) (change : Change (.compensate ref inserted) old new)
    (formed : before.WellFormed) (compensated : before.Compensated) (spent : before.Spent after)
    (evidence : ∃ row, after.evidence.get ref = some row ∧ row.attemptId = id ∧
      row.evidenceState = .consumed)
    (objects : ∀ window, objectsIn after.objects window = objectsIn before.objects window +
      if window = old.context.budgetWindowId then inserted else 0)
    (unadjusted : before.adjustments.get key = none) (mine : adjustment.attemptId = id)
    (adjustments : before.adjustments.Puts key adjustment after.adjustments) :
    after.Compensated := by
  obtain ⟨⟨earlier, owed, active⟩, debt, settled, resolved⟩ := change.compensates
  -- An attempt that has an adjustment has no active debt left to resolve.
  have first : ∀ other found, before.adjustments.get other = some found →
      found.attemptId ≠ id := by
    rintro other found stored rfl
    obtain ⟨also, has, done⟩ := compensated.adjusted other found stored
    obtain rfl := Option.some.inj ((touch.held.debt.trans owed).symm.trans has)
    rw [active] at done
    cases done
  refine ⟨?_, ?_, ?_, fun key window found => touch.counted change formed compensated objects found,
    fun key missing => touch.vacant compensated objects missing⟩
  · intro other found stored
    by_cases same : other = key
    · subst same
      obtain rfl := Option.some.inj (adjustments.get_self.symm.trans stored)
      rw [mine]
      exact ⟨debt, touch.debt_get.trans settled, resolved⟩
    · exact compensated.adjusted_later spent ((adjustments.get_of_ne same).symm.trans stored)
  · intro one two left right atOne atTwo same
    by_cases here : one = key <;> by_cases there : two = key
    · rw [here, there]
    · rw [here, adjustments.get_self, Option.some.injEq] at atOne
      rw [adjustments.get_of_ne there] at atTwo
      exact absurd (by rw [← same, ← atOne, mine]) (first two right atTwo)
    · rw [adjustments.get_of_ne here] at atOne
      rw [there, adjustments.get_self, Option.some.injEq] at atTwo
      exact absurd (by rw [same, ← atTwo, mine]) (first one left atOne)
    · rw [adjustments.get_of_ne here] at atOne
      rw [adjustments.get_of_ne there] at atTwo
      exact compensated.single one two left right atOne atTwo same
  · intro other found stored done
    by_cases same : other = id
    · subst same
      rcases change.resolved_origin (touch.debt_get.symm.trans stored) done with
        before | ⟨_, _, ⟨⟩, named⟩
      · exact compensated.resolved_later spent (touch.held.debt.trans before) done
      · obtain ⟨row, inbox, own, consumed⟩ := evidence
        exact ⟨ref, row, named, inbox, own, consumed⟩
    · exact compensated.resolved_later spent ((touch.debt_of_ne same).symm.trans stored) done

theorem Database.Compensated.frame (compensated : before.Compensated) (spent : before.Spent after)
    (debts : after.debts = before.debts) (objects : after.objects = before.objects)
    (adjustments : after.adjustments = before.adjustments)
    (counted : ∀ id window, after.windows.get id = some window →
      window.consumedDistinctObjects =
        objectsIn before.objects id + after.total id BudgetReservation.reported)
    (missing : ∀ id, after.windows.get id = none → before.windows.get id = none) :
    after.Compensated := by
  refine ⟨?_, ?_, ?_, ?_, ?_⟩
  · rw [adjustments]
    exact fun key adjustment found => compensated.adjusted_later spent found
  · rw [adjustments]
    exact compensated.single
  · rw [debts]
    exact fun id debt found resolved => compensated.resolved_later spent found resolved
  · rw [objects]
    exact counted
  · rw [objects]
    exact fun id gone => compensated.vacant id (missing id gone)

theorem Admits.compensated {id : UUID} {req : AdmissionRequest} {rows : Rows}
    (admits : Admits id req rows before after) (spent : before.Spent after)
    (compensated : before.Compensated) : after.Compensated := by
  refine compensated.frame spent admits.debts admits.objects admits.adjustments ?_ ?_
  · intro key found here
    have share : rows.reservation.reported = 0 := by
      rw [admits.reservation]
      rfl
    rw [admits.total, share, ite_self, add_zero]
    by_cases same : key = rows.context.budgetWindowId
    · subst same
      obtain rfl := Option.some.inj (admits.windows.get_self.symm.trans here)
      obtain ⟨window, limit, reserved, was, -⟩ := admits.window
      have counted := compensated.counted _ window was
      rw [reserved]
      exact counted
    · exact compensated.counted key found ((admits.windows.get_of_ne same).symm.trans here)
  · intro key gone
    have differ : key ≠ rows.context.budgetWindowId := by
      rintro rfl
      cases admits.windows.get_self.symm.trans gone
    exact (admits.windows.get_of_ne differ).symm.trans gone

theorem Move.compensated {kind : Kind} (move : Move kind before after)
    (formed : before.WellFormed) (compensated : before.Compensated) : after.Compensated := by
  have spent := move.spent
  cases move with
  | openWindow key window windows fresh unused put =>
    refine compensated.frame spent rfl rfl rfl (fun id found here => ?_) fun id gone => ?_
    · by_cases same : id = key
      · subst same
        obtain rfl := Option.some.inj (put.get_self.symm.trans here)
        have total : Database.total { before with windows } id BudgetReservation.reported = 0 :=
          formed.total_fresh fresh _
        rw [unused.consumedDistinctObjects, compensated.vacant id fresh, total, add_zero]
      · exact compensated.counted id found ((put.get_of_ne same).symm.trans here)
    · have differ : id ≠ key := by
        rintro rfl
        cases put.get_self.symm.trans gone
      exact (put.get_of_ne differ).symm.trans gone
  | admission admits => exact admits.compensated spent compensated
  | rewrite rewrites =>
    refine rewrites.touch.compensated rewrites.change formed compensated spent ?_
      rewrites.objects rewrites.adjustments
    rintro ref inserted rfl
    cases rewrites.plain
  | violate stamp found verified touch change put objects adjustments =>
    exact touch.compensated change formed compensated spent
      (fun _ _ impossible => by cases impossible) objects adjustments
  | compensate stamp found verified touch change put counted unadjusted adjusts adjustments =>
    exact touch.compensated_by change formed compensated spent ⟨_, put.get_self, rfl, rfl⟩
      counted unadjusted adjusts.1 adjustments
  | _ =>
    exact compensated.frame spent rfl rfl rfl compensated.counted fun _ gone => gone

end Moves

/-! ## Calls that find spent evidence -/

/-- A call that finds its evidence consumed or in quarantine writes nothing. -/
theorem lateCompensate_of_spent {seen db after : Database} {stamp : Time} {expectedRevision : Int}
    {result : CompensationResult} {row : InboxEvidence} (found : db.evidence.get ref = some row)
    (spent : row.evidenceState ≠ .verified)
    (done : Store.lateCompensate seen db stamp id ref expectedRevision = .ok (result, after)) :
    after = db := by
  unfold Store.lateCompensate at done
  obtain ⟨preliminary, -, rest⟩ := bind_eq_ok.mp done
  split at rest
  · obtain ⟨attempt, -, reported⟩ := bind_eq_ok.mp rest
    exact (congrArg Prod.snd (pure_eq_ok.mp reported)).symm
  · unfold Store.lateCompensateLocked at rest
    simp only [bind_eq_ok, demand_eq_ok, ensure_eq_ok, exists_const] at rest
    obtain ⟨context, -, window, -, attempt, -, request, -, -, reservation, -, debt, -, -, evidence,
      stored, rest⟩ := rest
    obtain rfl := Option.some.inj (found.symm.trans stored)
    split at rest
    · exact (congrArg Prod.snd (pure_eq_ok.mp rest)).symm
    · split at rest
      · exact (congrArg Prod.snd (pure_eq_ok.mp rest)).symm
      · cases state : row.evidenceState <;> simp_all

/-- In every run, of any length and in any order: evidence that has left `VERIFIED` and
debts that are `RESOLVED` never change again; an attempt has at most one adjustment; a
resolved debt names evidence of its own attempt; a call that finds its evidence spent, and
a call that fails, change nothing; and a window has consumed the objects recorded for it as
a set plus those its settled reservations report, with no negative debt. -/
theorem compensation_exactly_once {state : State}
    (reached : runtime.Reachable System.always state) :
    (∀ later, runtime.Steps System.always state later →
      (∀ ref row, state.db.evidence.get ref = some row → row.evidenceState ≠ .verified →
        later.db.evidence.get ref = some row) ∧
      ∀ id debt, state.db.debts.get id = some debt → debt.debtState = .resolved →
        later.db.debts.get id = some debt) ∧
    (∀ one two first second, state.db.adjustments.get one = some first →
      state.db.adjustments.get two = some second → first.attemptId = second.attemptId →
        one = two) ∧
    (∀ id debt, state.db.debts.get id = some debt → debt.debtState = .resolved →
      ∃ ref row, debt.ownerEvidenceRef = some ref ∧ state.db.evidence.get ref = some row ∧
        row.attemptId = id ∧ row.evidenceState = .consumed) ∧
    (∀ seen stamp id ref revision next row,
      (state.snapshot seen).evidence.get ref = some row ∨ state.db.evidence.get ref = some row →
      row.evidenceState ≠ .verified →
      state.step (.lateCompensate seen stamp id ref revision) = some next → next.db = state.db) ∧
    (∀ seen stamp id ref revision next error,
      Store.lateCompensate (state.snapshot seen) state.db stamp id ref revision = .error error →
      state.step (.lateCompensate seen stamp id ref revision) = some next → next.db = state.db) ∧
    ∀ id window, state.db.windows.get id = some window →
      window.consumedDistinctObjects = objectsIn state.db.objects id +
        state.db.total id BudgetReservation.reported ∧
      0 ≤ window.currentUnresolvedObjectDebtTotal := by
  have compensated : state.db.Compensated := by
    refine reachable_invariant (fun manifests _ => Database.migrated_compensated manifests)
      (fun kind before after _ formed move => move.compensated formed) ?_ ?_ reached
    · intro state caller stamp id actual outcome after old new valid _ phase rewrites
      exact (Move.rewrite rewrites).compensated valid.formed
    · intro state seen stamp id ref revision after valid _ violation named move
      exact move.compensated valid.formed
  refine ⟨fun later steps => ?_, compensated.single, compensated.resolved, ?_, ?_, ?_⟩
  · have spent := steps_spent reached steps
    exact ⟨spent.evidence, spent.debts⟩
  · intro seen stamp id ref revision next row found spent stepped
    have stored : state.db.evidence.get ref = some row := by
      rcases found with earlier | now
      · exact (reachable_snapshot_spent reached seen).evidence ref row earlier spent
      · exact now
    cases stepped
    cases committed : (Store.lateCompensate (state.snapshot seen) state.db stamp id ref
        revision).map (·.2) with
    | error error => rfl
    | ok db =>
      obtain ⟨result, done⟩ := map_snd_eq_ok committed
      exact lateCompensate_of_spent stored spent done
  · intro seen stamp id ref revision next error failed stepped
    cases stepped
    rw [failed]
    rfl
  · intro id window found
    have checked := Table.check_of_get found
    simp only [budgetWindow, Bool.and_eq_true, decide_eq_true_eq] at checked
    exact ⟨compensated.counted id window found, checked.2⟩

/-- Two lost calls of one window whose owners report the same object. -/
def sameObjectTwice : List Event :=
  let object := "v1:hmac-sha256:aaaaaaaaaaaaaaaaaaaaaaaaaaaaaaaa"
  let digest := "bbbbbbbbbbbbbbbbbbbbbbbbbbbbbbbbbbbbbbbbbbbbbbbbbbbbbbbbbbbbbbbb"
  [.begin 0 (searchCall "first" "one" 1) 1, .reserve 0 0 ⟨10, 11, 0⟩, .dispatch 0 0 "request-1",
    .begin 1 (searchCall "second" "two" 1) 2, .reserve 1 0 ⟨20, 21, 0⟩, .dispatch 1 0 "request-2",
    .markStaleAndClaim 99 99 0 (10 * second) (-1) "worker" second 5 [],
    .expireUnknown 99 (20 * second) (15 * second) 5,
    .insertVerifiedEvidence ⟨7, "udp", "request-1", "OWNER_RESULT", "SUCCEEDED", "OK", "result", 1,
      some [object], sampleChecksum⟩,
    .insertVerifiedEvidence ⟨8, "udp", "request-2", "OWNER_RESULT", "SUCCEEDED", "OK", "result", 1,
      some [object], digest⟩,
    .lateCompensate 99 0 1 7 0, .lateCompensate 99 0 2 8 0]

theorem compensation_exactly_once_sameObjectTwice :
    ∃ state window, replayTrace (fun _ _ => true) sameObjectTwice = some state ∧
      state.db.windows.get 10 = some window ∧ state.db.adjustments.toList.length = 2 ∧
      objectsIn state.db.objects 10 = 1 ∧ window.consumedDistinctObjects =
        objectsIn state.db.objects 10 + state.db.total 10 BudgetReservation.reported := by
  obtain ⟨state, replayed, reached, checked⟩ := replayTrace_reachable (fun _ _ => true)
    sameObjectTwice (fun state => (state.db.windows.get 10).any fun (_ : BudgetWindow) =>
      decide (state.db.adjustments.toList.length = 2 ∧ objectsIn state.db.objects 10 = 1))
    (by decide +kernel)
  obtain ⟨window, found, values⟩ := (Option.any_eq_true _ _).mp checked
  obtain ⟨adjusted, objects⟩ := of_decide_eq_true values
  obtain ⟨-, -, -, -, -, counted⟩ :=
    compensation_exactly_once (reached.mono fun _ _ _ => trivial)
  exact ⟨state, window, replayed, found, adjusted, objects, (counted 10 window found).1⟩

end OufMcp.Ledger
