import OufMcp.Ledger.Purge

/-!
# Closed attempts and cited evidence

Two invariants of the store that retention rests on.  A finished attempt has
settled its reservation or still owes for its objects, and every debt, adjustment
and incident that cites a piece of evidence is of the attempt the evidence is for.
-/

namespace OufMcp.Ledger

open Relational Transition

/-! ## Closed attempts -/

theorem Rows.Same.closed {old new : Rows} (same : old.Same new) (closed : old.Closed) :
    new.Closed := by
  obtain ⟨attempt, context, reservation, claim, debt, policy⟩ := same
  constructor
  · rw [attempt, reservation, debt]
    exact closed.finished
  · rw [attempt, reservation]
    exact closed.unresolved

theorem Change.closed {kind : Kind} {old new : Rows} (change : Change kind old new)
    (closed : old.Closed) : new.Closed := by
  have settled {rows : Rows} (state : rows.reservation.state.closed) : rows.Closed :=
    ⟨fun _ => .inl state, fun _ => state⟩
  have waiting {rows : Rows}
      (state : rows.attempt.state = .running ∨ rows.attempt.state = .unknown) : rows.Closed := by
    constructor
    · rcases state with running | unknown
      · simp [running, AttemptState.terminal]
      · simp [unknown, AttemptState.terminal]
    · rcases state with running | unknown
      · simp [running]
      · simp [unknown]
  cases change with
  | dispatch => exact waiting (.inl rfl)
  | settle => exact settled (.inl rfl)
  | releaseAdmission => exact settled (.inr rfl)
  | lose => exact waiting (.inr rfl)
  | hold owner unknown =>
    cases owner with
    | none => exact waiting (.inr unknown)
    | some taken => exact waiting (.inr unknown)
  | recover evidence =>
    refine settled ?_
    by_cases unsent : evidence.outcome = .notDispatched
    · exact .inr (if_pos unsent)
    · exact .inl (if_neg unsent)
  | expire => exact settled (.inl rfl)
  | violate ref stamp code resultRef debt uncertain owed active =>
    refine ⟨fun _ => .inr ⟨debt, owed, active⟩, ?_⟩
    intro impossible
    cases impossible
  | compensateUnresolved stamp ref inserted terminal dispatchState code resultRef debt unresolved =>
    exact settled (closed.unresolved unresolved)
  | compensateUnknown => exact settled (.inr rfl)

theorem Admits.closed {id : UUID} {req : AdmissionRequest} {rows : Rows} {before after : Database}
    (admits : Admits id req rows before after) : rows.Closed := by
  obtain ⟨now, attempt⟩ := admits.attempt
  constructor
  · rw [attempt]
    intro impossible
    cases impossible
  · rw [attempt]
    intro impossible
    cases impossible

def Database.AllClosed (db : Database) : Prop := ∀ id rows, db.Holds id rows → rows.Closed

theorem Move.allClosed {kind : Kind} {before after : Database} (move : Move kind before after)
    (formed : before.WellFormed) (closed : before.AllClosed) : after.AllClosed := by
  intro id rows held
  rcases formed.governed id with ⟨old, was, -⟩ | absent
  · obtain ⟨later, there, same | change⟩ := move.forward was
    · exact held.unique there ▸ same.closed (closed id old was)
    · exact held.unique there ▸ change.closed (closed id old was)
  · rcases move.absent absent with still | ⟨-, req, new, admits⟩
    · exact (still.not_holds held).elim
    · exact held.unique admits.holds ▸ admits.closed

/-! ## Citations of evidence -/

theorem Move.keepsEvidence {kind : Kind} {before after : Database} (move : Move kind before after)
    {ref : UUID} {row : InboxEvidence} (found : before.evidence.get ref = some row) :
    ∃ later, after.evidence.get ref = some later ∧ row.Progresses later := by
  have own := InboxEvidence.Progresses.refl row
  have rewritten : ∀ {key : UUID} {old new : InboxEvidence} {table : Table UUID ownerEvidenceInbox},
      before.evidence.get key = some old → before.evidence.Puts key new table →
      old.Progresses new → ∃ later, table.get ref = some later ∧ row.Progresses later := by
    intro key old new table was put same
    by_cases here : ref = key
    · subst here
      obtain rfl := Option.some.inj (found.symm.trans was)
      exact ⟨new, put.get_self, same⟩
    · exact ⟨row, (put.get_of_ne here).trans found, own⟩
  cases move with
  | admission admits => exact ⟨row, by rw [admits.evidence]; exact found, own⟩
  | rewrite rewrites => exact ⟨row, by rw [rewrites.evidence]; exact found, own⟩
  | ingest key new evidence held bound fresh verified put =>
    have differ : ref ≠ key := by
      rintro rfl
      cases fresh.symm.trans found
    exact ⟨row, (put.get_of_ne differ).trans found, own⟩
  | violate stamp was verified touch change put => exact rewritten was put ⟨_, _, rfl⟩
  | compensate stamp was verified touch change put => exact rewritten was put ⟨_, _, rfl⟩
  | _ => exact ⟨row, found, own⟩

theorem Move.names {kind : Kind} {before after : Database} (move : Move kind before after)
    {ref id : UUID} (names : before.Names ref id) : after.Names ref id := by
  obtain ⟨row, found, mine⟩ := names
  obtain ⟨later, stored, progress⟩ := move.keepsEvidence found
  exact ⟨later, stored, progress.sameScope.attempt.trans mine⟩

/-- A debt cites evidence once compensation has spent it. -/
theorem Change.cites {kind : Kind} {old new : Rows} {debt : ObjectDebt} {ref : UUID}
    (change : Change kind old new) (owed : new.debt = some debt)
    (cites : debt.ownerEvidenceRef = some ref) :
    (∃ prior, old.debt = some prior ∧ prior.ownerEvidenceRef = some ref) ∨
      ∃ inserted, kind = .compensate ref inserted := by
  cases change with
  | lose now opened running reserved bound origin =>
    rcases origin with ⟨-, -, rfl⟩ | ⟨-, rfl⟩
    · obtain rfl := Option.some.inj owed
      cases cites
    · exact .inl ⟨debt, owed, cites⟩
  | compensateUnresolved stamp spent inserted terminal dispatchState code resultRef prior =>
    obtain rfl := Option.some.inj owed
    exact .inr ⟨inserted, by rw [Option.some.inj cites]⟩
  | compensateUnknown stamp spent inserted terminal code resultRef prior =>
    obtain rfl := Option.some.inj owed
    exact .inr ⟨inserted, by rw [Option.some.inj cites]⟩
  | _ => exact .inl ⟨debt, owed, cites⟩

theorem Touches.cites {id owner ref : UUID} {before after : Database} {kind : Kind}
    {old new : Rows} {debt : ObjectDebt} (touch : Touches id before after old new)
    (change : Change kind old new) (found : after.debts.get owner = some debt)
    (cites : debt.ownerEvidenceRef = some ref) :
    (∃ prior, before.debts.get owner = some prior ∧ prior.ownerEvidenceRef = some ref) ∨
      owner = id ∧ ∃ inserted, kind = .compensate ref inserted := by
  by_cases same : owner = id
  · subst same
    rw [touch.debt_get] at found
    rcases change.cites found cites with ⟨prior, was, also⟩ | spent
    · exact .inl ⟨prior, touch.held.debt.trans was, also⟩
    · exact .inr ⟨rfl, spent⟩
  · rw [touch.debt_of_ne same] at found
    exact .inl ⟨debt, found, cites⟩

theorem Move.charged {kind : Kind} {before after : Database} (move : Move kind before after)
    (charged : before.Charged) : after.Charged := by
  have names {ref id : UUID} (named : before.Names ref id) : after.Names ref id := move.names named
  have still : after.debts = before.debts → after.adjustments = before.adjustments →
      after.Charged := by
    intro debts adjustments
    constructor
    · rw [debts]
      exact fun id debt ref found cites => names (charged.debts id debt ref found cites)
    · rw [adjustments]
      exact fun key row found => names (charged.adjustments key row found)
  cases move with
  | admission admits => exact still admits.debts admits.adjustments
  | rewrite rewrites =>
    refine ⟨?_, ?_⟩
    · intro owner debt ref found cites
      rcases rewrites.touch.cites rewrites.change found cites with
        ⟨prior, was, also⟩ | ⟨-, inserted, rfl⟩
      · exact names (charged.debts owner prior ref was also)
      · cases rewrites.plain
    · rw [rewrites.adjustments]
      exact fun key row found => names (charged.adjustments key row found)
  | violate stamp was verified touch change put objects adjustments =>
    refine ⟨?_, ?_⟩
    · intro owner debt ref found cites
      rcases touch.cites change found cites with ⟨prior, was, also⟩ | ⟨-, inserted, impossible⟩
      · exact names (charged.debts owner prior ref was also)
      · cases impossible
    · rw [adjustments]
      exact fun key row found => names (charged.adjustments key row found)
  | compensate stamp was verified touch change put counted unadjusted adjusts adjustments same =>
    rename_i ref inserted row old new key adjustment
    have named := names ⟨row, was, rfl⟩
    refine ⟨?_, ?_⟩
    · intro owner debt other found cites
      rcases touch.cites change found cites with ⟨prior, was, also⟩ | ⟨rfl, _, same⟩
      · exact names (charged.debts owner prior other was also)
      · cases same
        exact named
    · intro other stored found
      by_cases here : other = key
      · subst here
        obtain rfl := Option.some.inj (adjustments.get_self.symm.trans found)
        rw [adjusts.1, adjusts.2]
        exact named
      · rw [adjustments.get_of_ne here] at found
        exact names (charged.adjustments other stored found)
  | _ => exact still rfl rfl

/-! ## Incidents -/

theorem Move.reports {kind : Kind} {before after : Database} (move : Move kind before after) :
    Reports before after := by
  cases move with
  | note incidents extra ordinary reports => exact reports
  | admission admits => exact .of_eq admits.incidents
  | rewrite rewrites => exact .of_eq rewrites.incidents
  | violate stamp found verified touch change put objects adjustments reports => exact reports
  | compensate stamp found verified touch change put counted unadjusted adjusts adjustments same =>
    exact .of_eq same
  | _ => exact .of_eq rfl

def Kind.discreet : Kind → Bool
  | .note | .violate _ => false
  | _ => true

theorem Moves.incidents {allowed : Kind → Prop} {before after : Database}
    (moves : Moves allowed before after) (formed : before.WellFormed)
    (discreet : ∀ kind, allowed kind → kind.discreet = true) :
    after.incidents = before.incidents := by
  refine (moves.induction (R := fun a b => b.incidents = a.incidents) formed
    (fun _ => rfl) (fun _ _ _ first second => Eq.trans second first) ?_).2
  intro kind a b member _ move
  have quiet := discreet kind member
  cases move with
  | note | violate => cases quiet
  | admission admits => exact admits.incidents
  | rewrite rewrites => exact rewrites.incidents
  | compensate => assumption
  | _ => rfl

theorem perform_reports {state : StoreState} {operation : Operation} {db : Database}
    (sound : state.Sound) (performed : state.perform operation = some db) :
    Reports state.db db := by
  cases operation with
  | lateCompensate seen stamp id ref expectedRevision =>
    obtain ⟨result, done⟩ := map_snd_toOption performed
    rcases lateCompensate_move sound.formed done with
      rfl | note | ⟨-, -, ⟨-, violate⟩ | ⟨inserted, compensate⟩⟩
    · exact .of_eq rfl
    · exact note.reports
    · exact violate.reports
    · exact compensate.reports
  | _ =>
    refine .of_eq ((perform_moves sound performed).incidents sound.formed ?_)
    intro kind allowed
    cases kind <;> simp_all [Operation.allows, Kind.stale, Kind.discreet]

/-! ## Across an operation -/

theorem Moves.allClosed {allowed : Kind → Prop} {before after : Database}
    (moves : Moves allowed before after) (formed : before.WellFormed) (closed : before.AllClosed) :
    after.AllClosed :=
  moves.invariant formed closed fun _ _ _ _ formed move holds => move.allClosed formed holds

theorem Moves.names {allowed : Kind → Prop} {before after : Database}
    (moves : Moves allowed before after) (formed : before.WellFormed) {ref id : UUID}
    (named : before.Names ref id) : after.Names ref id :=
  moves.invariant formed named fun _ _ _ _ _ move holds => move.names holds

theorem Moves.cited {allowed : Kind → Prop} {before after : Database}
    (moves : Moves allowed before after) (formed : before.WellFormed)
    (reports : Reports before after) (cited : before.Cited) : after.Cited := by
  have charged : after.Charged := moves.invariant formed cited.toCharged
    fun _ _ _ _ _ move holds => move.charged holds
  refine ⟨charged, ?_⟩
  intro key row found
  rcases reports key row found with was | named
  · exact moves.names formed (cited.incidents key row was)
  · exact moves.names formed named

end OufMcp.Ledger
