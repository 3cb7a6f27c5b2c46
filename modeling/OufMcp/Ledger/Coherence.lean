import OufMcp.Ledger.Steps

/-!
# Coherence of an attempt across relations

The states of an attempt, its reservation, its claim and its debt move together,
and a retry guard counts the attempts of its group that are uncertain or were
closed by quarantined evidence.  Two transactions break this: a settlement that
arrives after the reply was counted as lost, and evidence that violates the
contract of an attempt whose hold has not ended.
-/

namespace OufMcp.Ledger

open Relational Transition

/-- The attempt still owes the objects of a lost reply. -/
def Rows.Owes (rows : Rows) : Prop :=
  ∃ debt, rows.debt = some debt ∧ debt.debtState = .active

/-- The rows of one attempt are in step; `quarantined` says that evidence closed it. -/
structure Rows.Coherent (quarantined : Bool) (rows : Rows) : Prop where
  live : rows.attempt.state = .admitted ∨ rows.attempt.state = .running →
    rows.reservation.state = .reserved ∧ rows.claim.state = .bound ∧ rows.debt = none
  unknown : rows.attempt.state = .unknown →
    rows.reservation.state = .unknown ∧ rows.claim.state = .unknown ∧
      (rows.Owes ↔ 0 < rows.reservation.reservedDistinctObjectsMax)
  unresolved : rows.attempt.state = .unresolved →
    rows.reservation.state = .reconciled ∧ rows.claim.state = .completed ∧
      (rows.Owes ↔ 0 < rows.reservation.reservedDistinctObjectsMax)
  terminal : rows.attempt.state.terminal = true →
    (rows.reservation.state = .reconciled ∨ rows.reservation.state = .released) ∧
      rows.claim.state ≠ .unknown ∧ (rows.Owes → quarantined = true)
  closed : quarantined = true →
    rows.attempt.state = .failed ∧ rows.reservation.state = .reconciled

namespace Rows.Coherent

variable {rows : Rows} {quarantined : Bool}

theorem not_quarantined (coherent : rows.Coherent quarantined)
    (unclosed : rows.attempt.state ≠ .failed) : quarantined = false := by
  cases quarantined with
  | false => rfl
  | true => exact absurd (coherent.closed rfl).1 unclosed

theorem of_live (state : rows.attempt.state = .admitted ∨ rows.attempt.state = .running)
    (reserved : rows.reservation.state = .reserved) (bound : rows.claim.state = .bound)
    (free : rows.debt = none) : rows.Coherent false where
  live _ := ⟨reserved, bound, free⟩
  unknown impossible := by rcases state with s | s <;> rw [s] at impossible <;> cases impossible
  unresolved impossible := by rcases state with s | s <;> rw [s] at impossible <;> cases impossible
  terminal impossible := by rcases state with s | s <;> rw [s] at impossible <;> cases impossible
  closed impossible := by cases impossible

theorem of_unknown (state : rows.attempt.state = .unknown)
    (uncertain : rows.reservation.state = .unknown) (lost : rows.claim.state = .unknown)
    (owes : rows.Owes ↔ 0 < rows.reservation.reservedDistinctObjectsMax) :
    rows.Coherent false where
  live impossible := by rw [state] at impossible; rcases impossible with h | h <;> cases h
  unknown _ := ⟨uncertain, lost, owes⟩
  unresolved impossible := by rw [state] at impossible; cases impossible
  terminal impossible := by rw [state] at impossible; cases impossible
  closed impossible := by cases impossible

theorem of_unresolved (state : rows.attempt.state = .unresolved)
    (charged : rows.reservation.state = .reconciled) (done : rows.claim.state = .completed)
    (owes : rows.Owes ↔ 0 < rows.reservation.reservedDistinctObjectsMax) :
    rows.Coherent false where
  live impossible := by rw [state] at impossible; rcases impossible with h | h <;> cases h
  unknown impossible := by rw [state] at impossible; cases impossible
  unresolved _ := ⟨charged, done, owes⟩
  terminal impossible := by rw [state] at impossible; cases impossible
  closed impossible := by cases impossible

theorem of_terminal (state : rows.attempt.state.terminal = true)
    (ended : rows.reservation.state = .reconciled ∨ rows.reservation.state = .released)
    (decided : rows.claim.state ≠ .unknown) (owes : rows.Owes → quarantined = true)
    (closed : quarantined = true →
      rows.attempt.state = .failed ∧ rows.reservation.state = .reconciled) :
    rows.Coherent quarantined where
  live impossible := by rcases impossible with h | h <;> rw [h] at state <;> cases state
  unknown impossible := by rw [impossible] at state; cases state
  unresolved impossible := by rw [impossible] at state; cases state
  terminal _ := ⟨ended, decided, owes⟩
  closed := closed

theorem congr {other : Rows} (coherent : rows.Coherent quarantined)
    (attempt : other.attempt = rows.attempt) (reservation : other.reservation = rows.reservation)
    (claim : other.claim = rows.claim) (debt : other.debt = rows.debt) :
    other.Coherent quarantined := by
  have owes : other.Owes ↔ rows.Owes := by
    unfold Rows.Owes
    rw [debt]
  constructor
  · rw [attempt, reservation, claim, debt]
    exact coherent.live
  · rw [attempt, reservation, claim, owes]
    exact coherent.unknown
  · rw [attempt, reservation, claim, owes]
    exact coherent.unresolved
  · rw [attempt, reservation, claim, owes]
    exact coherent.terminal
  · rw [attempt, reservation]
    exact coherent.closed

end Rows.Coherent

def Kind.violates : Kind → Bool
  | .violate _ => true
  | _ => false

theorem Kind.ordinary.not_violates {kind : Kind} (usual : kind.ordinary) :
    kind.violates = false := by
  cases kind with
  | violate ref => exact usual.elim
  | _ => rfl

/-- What an attempt contributes to the blockers of its group. -/
def ToolAttempt.blocks (quarantined : Bool) (attempt : ToolAttempt) : Int :=
  if attempt.state.uncertain = true ∨ (attempt.state = .failed ∧ quarantined = true) then 1 else 0

theorem ToolAttempt.blocks_of_uncertain {attempt : ToolAttempt} {quarantined : Bool}
    (uncertain : attempt.state.uncertain = true) : attempt.blocks quarantined = 1 :=
  if_pos (.inl uncertain)

theorem ToolAttempt.blocks_of_certain {attempt : ToolAttempt}
    (certain : attempt.state.uncertain = false) : attempt.blocks false = 0 := by
  simp [ToolAttempt.blocks, certain]

theorem ToolAttempt.blocks_of_failed {attempt : ToolAttempt} (failed : attempt.state = .failed) :
    attempt.blocks true = 1 :=
  if_pos (.inr ⟨failed, rfl⟩)

section Change

variable {kind : Kind} {old new : Rows} {quarantined : Bool}

/-- A settlement that finds the reservation neither charged nor lost finds the attempt
running, or closed without a charge. -/
theorem Rows.Coherent.settled (coherent : old.Coherent quarantined)
    (unsettled : old.reservation.state ≠ .reconciled)
    (known : old.reservation.state ≠ .unknown) :
    quarantined = false ∧ old.attempt.state.uncertain = false ∧ old.claim.state ≠ .unknown ∧
      ¬ old.Owes := by
  have clean : quarantined = false := by
    cases quarantined with
    | false => rfl
    | true => exact absurd (coherent.closed rfl).2 unsettled
  subst clean
  have alive : old.attempt.state = .admitted ∨ old.attempt.state = .running →
      old.claim.state ≠ .unknown ∧ ¬ old.Owes := by
    intro state
    obtain ⟨-, bound, free⟩ := coherent.live state
    refine ⟨by rw [bound]; decide, ?_⟩
    rintro ⟨debt, owed, -⟩
    rw [free] at owed
    cases owed
  have ended : old.attempt.state.terminal = true → old.claim.state ≠ .unknown ∧ ¬ old.Owes := by
    intro state
    obtain ⟨-, decided, owes⟩ := coherent.terminal state
    exact ⟨decided, fun owing => by cases owes owing⟩
  cases state : old.attempt.state with
  | admitted => exact ⟨rfl, rfl, alive (.inl state)⟩
  | running => exact ⟨rfl, rfl, alive (.inr state)⟩
  | succeeded => exact ⟨rfl, rfl, ended (by rw [state]; rfl)⟩
  | failed => exact ⟨rfl, rfl, ended (by rw [state]; rfl)⟩
  | unknown => exact absurd (coherent.unknown state).1 known
  | unresolved => exact absurd (coherent.unresolved state).1 unsettled

/-- Every change keeps the rows in step, where settlement finds no lost reservation and
violation no attempt on hold. -/
theorem Change.coherent (change : Change kind old new) (coherent : old.Coherent quarantined)
    (settles : ∀ actual, kind = .settle actual → old.reservation.state ≠ .unknown)
    (violates : ∀ ref, kind = .violate ref → old.attempt.state ≠ .unknown) :
    new.Coherent (quarantined || kind.violates) := by
  cases change with
  | dispatch backendRequestId leaseUntil admitted undispatched =>
    obtain rfl := coherent.not_quarantined (by rw [admitted]; decide)
    obtain ⟨reserved, bound, free⟩ := coherent.live (.inl admitted)
    exact .of_live (.inr rfl) reserved bound free
  | settle actual outcome stamp unsettled objects =>
    obtain ⟨rfl, -, decided, free⟩ := coherent.settled unsettled (settles actual rfl)
    refine .of_terminal ?_ (.inl rfl) decided (fun owes => absurd owes free) Bool.false_ne_true.elim
    cases success : outcome.success <;> simp [ToolAttempt.acknowledge, success,
      AttemptState.terminal]
  | releaseAdmission stamp admitted undispatched reserved bound =>
    obtain rfl := coherent.not_quarantined (by rw [admitted]; decide)
    obtain ⟨-, -, free⟩ := coherent.live (.inl admitted)
    refine .of_terminal rfl (.inr rfl) (fun impossible => by cases impossible) ?_
      Bool.false_ne_true.elim
    rintro ⟨debt, owed, -⟩
    cases free.symm.trans owed
  | lose now debt running reserved bound opened =>
    obtain rfl := coherent.not_quarantined (by rw [running]; decide)
    obtain ⟨-, -, free⟩ := coherent.live (.inr running)
    refine .of_unknown rfl rfl rfl ?_
    rcases opened with ⟨some, -, rfl⟩ | ⟨zero, rfl⟩
    · exact ⟨fun _ => some, fun _ => ⟨_, rfl, rfl⟩⟩
    · constructor
      · rintro ⟨debt, owed, -⟩
        cases free.symm.trans owed
      · exact fun some => absurd some (not_lt.mpr zero)
  | hold owner unknown =>
    obtain rfl := coherent.not_quarantined (by rw [unknown]; decide)
    obtain ⟨uncertain, lost, owes⟩ := coherent.unknown unknown
    cases owner <;> exact .of_unknown unknown uncertain lost owes
  | recover evidence stamp unknown uncertain lost calls bytes objects blocked =>
    obtain rfl := coherent.not_quarantined (by rw [unknown]; decide)
    obtain ⟨-, -, owes⟩ := coherent.unknown unknown
    refine .of_terminal ?_ ?_ (fun impossible => by cases impossible) (fun owing => ?_)
      Bool.false_ne_true.elim
    · by_cases succeeded : evidence.outcome = .succeeded <;>
        simp [ToolAttempt.recover, succeeded, AttemptState.terminal]
    · by_cases sent : evidence.outcome = .notDispatched <;>
        simp [BudgetReservation.recover, sent]
    · exact absurd (owes.mp owing) (not_lt.mpr objects)
  | expire now unknown uncertain lost =>
    obtain rfl := coherent.not_quarantined (by rw [unknown]; decide)
    exact .of_unresolved rfl rfl rfl (coherent.unknown unknown).2.2
  | violate ref stamp code resultRef debt uncertain owed active =>
    have unresolved : old.attempt.state = .unresolved := by
      have known := violates ref rfl
      cases state : old.attempt.state <;> simp_all [AttemptState.uncertain]
    obtain ⟨charged, done, -⟩ := coherent.unresolved unresolved
    rw [show (Kind.violate ref).violates = true from rfl, Bool.or_true]
    exact .of_terminal rfl (.inl charged) (by rw [done]; decide) (fun _ => rfl)
      fun _ => ⟨rfl, charged⟩
  | compensateUnresolved stamp ref inserted terminal dispatchState code resultRef debt unresolved
      owed active covered counted blocked =>
    obtain rfl := coherent.not_quarantined (by rw [unresolved]; decide)
    obtain ⟨charged, done, -⟩ := coherent.unresolved unresolved
    refine .of_terminal (by cases terminal <;> rfl) (.inl charged) (by rw [done]; decide) ?_
      Bool.false_ne_true.elim
    rintro ⟨_, ⟨⟩, impossible⟩
    cases impossible
  | compensateUnknown stamp ref inserted terminal code resultRef debt unknown uncertain lost owed
      active covered counted blocked =>
    obtain rfl := coherent.not_quarantined (by rw [unknown]; decide)
    refine .of_terminal (by cases terminal <;> rfl) (.inr rfl)
      (fun impossible => by cases impossible) ?_ Bool.false_ne_true.elim
    rintro ⟨_, ⟨⟩, impossible⟩
    cases impossible

theorem Change.blocks (change : Change kind old new) (coherent : old.Coherent quarantined)
    (settles : ∀ actual, kind = .settle actual → old.reservation.state ≠ .unknown) :
    new.guard.blockingAttempts + old.attempt.blocks quarantined =
      old.guard.blockingAttempts + new.attempt.blocks (quarantined || kind.violates) := by
  cases change with
  | dispatch backendRequestId leaseUntil admitted undispatched =>
    obtain rfl := coherent.not_quarantined (by rw [admitted]; decide)
    rw [ToolAttempt.blocks_of_certain (by rw [admitted]; rfl)]
    exact congrArg _ (ToolAttempt.blocks_of_certain rfl).symm
  | settle actual outcome stamp unsettled objects =>
    obtain ⟨rfl, certain, -, -⟩ := coherent.settled unsettled (settles actual rfl)
    rw [ToolAttempt.blocks_of_certain certain]
    refine congrArg _ (ToolAttempt.blocks_of_certain ?_).symm
    cases success : outcome.success <;>
      simp [ToolAttempt.acknowledge, success, AttemptState.uncertain]
  | releaseAdmission stamp admitted undispatched reserved bound =>
    obtain rfl := coherent.not_quarantined (by rw [admitted]; decide)
    rw [ToolAttempt.blocks_of_certain (by rw [admitted]; rfl)]
    exact congrArg _ (ToolAttempt.blocks_of_certain rfl).symm
  | lose now debt running reserved bound opened =>
    obtain rfl := coherent.not_quarantined (by rw [running]; decide)
    rw [ToolAttempt.blocks_of_certain (by rw [running]; rfl),
      ToolAttempt.blocks_of_uncertain rfl, add_zero]
    rfl
  | hold owner unknown =>
    rw [ToolAttempt.blocks_of_uncertain (by rw [unknown]; rfl), ToolAttempt.blocks_of_uncertain]
    cases owner <;> simp [ToolAttempt.hold, ToolAttempt.letGo, unknown, AttemptState.uncertain]
  | recover evidence stamp unknown uncertain lost calls bytes objects blocked =>
    obtain rfl := coherent.not_quarantined (by rw [unknown]; decide)
    rw [ToolAttempt.blocks_of_uncertain (by rw [unknown]; rfl), RetryGuard.unblock, sub_add_cancel]
    refine (add_eq_left.mpr (ToolAttempt.blocks_of_certain ?_)).symm
    by_cases succeeded : evidence.outcome = .succeeded <;>
      simp [ToolAttempt.recover, succeeded, AttemptState.uncertain]
  | expire now unknown uncertain lost =>
    rw [ToolAttempt.blocks_of_uncertain (by rw [unknown]; rfl), ToolAttempt.blocks_of_uncertain rfl]
  | violate ref stamp code resultRef debt uncertain owed active =>
    rw [ToolAttempt.blocks_of_uncertain uncertain, show (Kind.violate ref).violates = true from rfl,
      Bool.or_true, ToolAttempt.blocks_of_failed rfl]
  | compensateUnresolved stamp ref inserted terminal dispatchState code resultRef debt unresolved
      owed active covered counted blocked =>
    obtain rfl := coherent.not_quarantined (by rw [unresolved]; decide)
    rw [ToolAttempt.blocks_of_uncertain (by rw [unresolved]; rfl), RetryGuard.unblock,
      sub_add_cancel]
    exact (add_eq_left.mpr (ToolAttempt.blocks_of_certain (by cases terminal <;> rfl))).symm
  | compensateUnknown stamp ref inserted terminal code resultRef debt unknown uncertain lost owed
      active covered counted blocked =>
    obtain rfl := coherent.not_quarantined (by rw [unknown]; decide)
    rw [ToolAttempt.blocks_of_uncertain (by rw [unknown]; rfl), RetryGuard.unblock,
      sub_add_cancel]
    exact (add_eq_left.mpr (ToolAttempt.blocks_of_certain (by cases terminal <;> rfl))).symm

end Change

/-! ## The whole database -/

def Database.quarantined (db : Database) (id : UUID) : Bool :=
  db.evidence.toList.any fun entry =>
    decide (entry.2.attemptId = id ∧ entry.2.evidenceState = .quarantined)

/-- The attempts of a group that are uncertain or were closed by quarantined evidence. -/
def Database.blockers (db : Database) (group : UUID) : Int :=
  db.contexts.sum fun id context =>
    if context.equivalenceGroupId = group then
      (db.attempts.get id).elim 0 (ToolAttempt.blocks (db.quarantined id))
    else 0

/-- Every attempt is in step, and every guard counts its blockers. -/
structure Database.Coherent (db : Database) : Prop where
  attempts : ∀ id rows, db.Holds id rows → rows.Coherent (db.quarantined id)
  guards : ∀ group guard, db.guards.get group = some guard →
    guard.blockingAttempts = db.blockers group

theorem Database.quarantined_iff {db : Database} {id : UUID} :
    db.quarantined id = true ↔ ∃ ref row, db.evidence.get ref = some row ∧ row.attemptId = id ∧
      row.evidenceState = .quarantined := by
  unfold Database.quarantined
  rw [List.any_eq_true]
  constructor
  · rintro ⟨⟨ref, row⟩, member, named⟩
    exact ⟨ref, row, Table.mem_toList.mp member, of_decide_eq_true named⟩
  · rintro ⟨ref, row, found, named⟩
    exact ⟨(ref, row), Table.mem_toList.mpr found, decide_eq_true named⟩

/-- A write that neither takes evidence out of quarantine nor puts it there. -/
theorem Database.quarantined_put {before after : Database} {ref : UUID} {row : InboxEvidence}
    (put : before.evidence.Puts ref row after.evidence)
    (clear : row.evidenceState ≠ .quarantined)
    (was : ∀ old, before.evidence.get ref = some old → old.evidenceState ≠ .quarantined)
    (id : UUID) : after.quarantined id = before.quarantined id := by
  rw [Bool.eq_iff_iff, quarantined_iff, quarantined_iff]
  constructor
  · rintro ⟨other, found, stored, named, held⟩
    by_cases same : other = ref
    · subst same
      obtain rfl := Option.some.inj (put.get_self.symm.trans stored)
      exact absurd held clear
    · exact ⟨other, found, (put.get_of_ne same).symm.trans stored, named, held⟩
  · rintro ⟨other, found, stored, named, held⟩
    have differ : other ≠ ref := by
      rintro rfl
      exact was found stored held
    exact ⟨other, found, (put.get_of_ne differ).trans stored, named, held⟩

theorem Database.quarantined_of_evidence {before after : Database}
    (same : after.evidence = before.evidence) (id : UUID) :
    after.quarantined id = before.quarantined id := by
  unfold Database.quarantined
  rw [same]

theorem Database.migrated_coherent (manifests : List String) :
    (Database.migrated manifests).Coherent where
  attempts id rows held := by cases held.attempt
  guards group guard found := by cases found

/-- A change that keeps the rows of one attempt in step, and moves its guard by what the
attempt blocks, keeps the database coherent. -/
theorem Touches.coherent {id : UUID} {before after : Database} {old new : Rows}
    (touch : Touches id before after old new) (formed : before.WellFormed)
    (coherent : before.Coherent)
    (others : ∀ other, other ≠ id → after.quarantined other = before.quarantined other)
    (inStep : new.Coherent (after.quarantined id))
    (moved : new.guard.blockingAttempts + old.attempt.blocks (before.quarantined id) =
      old.guard.blockingAttempts + new.attempt.blocks (after.quarantined id)) :
    after.Coherent := by
  constructor
  · intro other rows held
    by_cases same : other = id
    · subst same
      obtain rfl := touch.holds.unique held
      exact inStep
    · rcases formed.governed other with ⟨earlier, was, -⟩ | absent
      · have attempt := Option.some.inj (held.attempt.symm.trans
          ((touch.attempts.get_of_ne same).trans was.attempt))
        have reservation := Option.some.inj (held.reservation.symm.trans
          ((touch.reservations.get_of_ne same).trans was.reservation))
        have claim := Option.some.inj (held.claim.symm.trans
          ((touch.claims.get_of_ne same).trans was.claim))
        have debt := held.debt.symm.trans ((touch.debt_of_ne same).trans was.debt)
        rw [others other same]
        exact (coherent.attempts other earlier was).congr attempt reservation claim debt
      · exact ((touch.absent absent).not_holds held).elim
  · intro group guard found
    have agree : ∀ other context, other ≠ id → before.contexts.get other = some context →
        (if context.equivalenceGroupId = group then
          (before.attempts.get other).elim 0 (ToolAttempt.blocks (before.quarantined other))
        else 0) =
        (if context.equivalenceGroupId = group then
          (after.attempts.get other).elim 0 (ToolAttempt.blocks (after.quarantined other))
        else 0) := by
      intro other context differ _
      rw [touch.attempts.get_of_ne differ, others other differ]
    have total := Table.sum_exchange agree
    rw [touch.held.context, Option.elim_some, Option.elim_some, touch.held.attempt,
      touch.attempts.get_self, Option.elim_some, Option.elim_some] at total
    have after_eq : after.blockers group = before.contexts.sum fun other context =>
        if context.equivalenceGroupId = group then
          (after.attempts.get other).elim 0 (ToolAttempt.blocks (after.quarantined other))
        else 0 := by
      unfold Database.blockers
      rw [touch.contexts]
    rw [after_eq]
    by_cases same : group = old.context.equivalenceGroupId
    · subst same
      obtain rfl := Option.some.inj (touch.guards.get_self.symm.trans found)
      have counted := coherent.guards _ _ touch.held.guard
      unfold Database.blockers at counted
      simp only [if_true] at total
      omega
    · rw [touch.guards.get_of_ne same] at found
      have counted := coherent.guards _ _ found
      unfold Database.blockers at counted
      simp only [if_neg (Ne.symm same), add_zero] at total
      omega

/-- The same for one change of the attempt, under the conditions of `Change.coherent`. -/
theorem Touches.coherent_of_change {id : UUID} {before after : Database} {kind : Kind}
    {old new : Rows} (touch : Touches id before after old new) (change : Change kind old new)
    (formed : before.WellFormed) (coherent : before.Coherent)
    (settles : ∀ actual, kind = .settle actual → old.reservation.state ≠ .unknown)
    (violates : ∀ ref, kind = .violate ref → old.attempt.state ≠ .unknown)
    (others : ∀ other, other ≠ id → after.quarantined other = before.quarantined other)
    (marked : after.quarantined id = (before.quarantined id || kind.violates)) :
    after.Coherent := by
  have inStep := coherent.attempts id old touch.held
  refine touch.coherent formed coherent others ?_ ?_
  · rw [marked]
    exact change.coherent inStep settles violates
  · rw [marked]
    exact change.blocks inStep settles

/-- Coherence is kept where the rows of attempts stay and every guard counts as before. -/
theorem Database.Coherent.frame {before after : Database} (coherent : before.Coherent)
    (formed : before.WellFormed) (attempts : after.attempts = before.attempts)
    (contexts : after.contexts = before.contexts)
    (reservations : after.reservations = before.reservations)
    (claims : after.claims = before.claims) (debts : after.debts = before.debts)
    (quarantined : ∀ id, after.quarantined id = before.quarantined id)
    (guards : ∀ group guard, after.guards.get group = some guard →
      guard.blockingAttempts = before.blockers group) : after.Coherent := by
  constructor
  · intro id rows held
    obtain ⟨earlier, was, attempt⟩ := formed.holds_of_attempt (attempts ▸ held.attempt)
    have reservation :=
      Option.some.inj ((reservations ▸ held.reservation).symm.trans was.reservation)
    have claim := Option.some.inj ((claims ▸ held.claim).symm.trans was.claim)
    have debt := (debts ▸ held.debt).symm.trans was.debt
    rw [quarantined]
    exact (coherent.attempts id earlier was).congr attempt.symm reservation claim debt
  · intro group guard found
    rw [guards group guard found]
    unfold Database.blockers
    simp only [attempts, contexts, quarantined]

theorem Database.WellFormed.no_blockers {db : Database} (formed : db.WellFormed) {group : UUID}
    (fresh : db.guards.get group = none) : db.blockers group = 0 := by
  refine Table.sum_eq_zero fun id context found => ?_
  obtain ⟨rows, held, rfl⟩ := formed.holds_of_context found
  refine if_neg ?_
  rintro rfl
  cases fresh.symm.trans held.guard

/-- Evidence names an attempt that is stored, so an absent one is not in quarantine. -/
theorem Database.WellFormed.not_quarantined {db : Database} (formed : db.WellFormed) {id : UUID}
    (absent : db.Absent id) : db.quarantined id = false := by
  rw [Bool.eq_false_iff]
  intro held
  obtain ⟨ref, row, found, rfl, -⟩ := Database.quarantined_iff.mp held
  obtain ⟨rows, stored, -⟩ := formed.inbox ref row found
  exact absent.not_holds stored

theorem Admits.coherent {id : UUID} {req : AdmissionRequest} {rows : Rows}
    {before after : Database} (admits : Admits id req rows before after)
    (formed : before.WellFormed) (coherent : before.Coherent) : after.Coherent := by
  have quarantined := Database.quarantined_of_evidence admits.evidence
  have clear := formed.not_quarantined admits.absent
  obtain ⟨now, attempt⟩ := admits.attempt
  constructor
  · intro other later held
    rw [quarantined]
    by_cases same : other = id
    · subst same
      obtain rfl := admits.holds.unique held
      rw [clear]
      refine .of_live (.inl ?_) ?_ ?_ admits.debt
      · rw [attempt]
        rfl
      · rw [admits.reservation]
        rfl
      · rw [admits.claim]
        rfl
    · rcases formed.governed other with ⟨earlier, was, -⟩ | absent
      · obtain ⟨final, still, own⟩ := admits.forward was
        obtain rfl := still.unique held
        exact (coherent.attempts other earlier was).congr own.attempt own.reservation own.claim
          own.debt
      · exact ((admits.absent_of_ne same absent).not_holds held).elim
  · intro group guard found
    rw [admits.guards] at found
    rw [coherent.guards group guard found]
    unfold Database.blockers
    have total := admits.contexts.sum fun other context =>
      if context.equivalenceGroupId = group then
        (after.attempts.get other).elim 0 (ToolAttempt.blocks (after.quarantined other))
      else 0
    have unblocked : rows.attempt.blocks (after.quarantined id) = 0 := by
      rw [quarantined, clear, attempt]
      exact ToolAttempt.blocks_of_certain rfl
    rw [admits.absent.context, Option.elim_none, add_zero, admits.attempts.get_self,
      Option.elim_some, unblocked, ite_self, add_zero] at total
    rw [total]
    refine Table.sum_congr fun other context stored => ?_
    have differ : other ≠ id := by
      rintro rfl
      cases admits.absent.context.symm.trans stored
    rw [admits.attempts.get_of_ne differ, quarantined]

theorem Move.coherent {kind : Kind} {before after : Database} (move : Move kind before after)
    (usual : kind.ordinary) (formed : before.WellFormed) (coherent : before.Coherent) :
    after.Coherent := by
  have touched : ∀ {id : UUID} {old new : Rows}, Touches id before after old new →
      Change kind old new → (∀ other, after.quarantined other = before.quarantined other) →
      after.Coherent := by
    intro id old new touch change same
    refine touch.coherent_of_change change formed coherent ?_ ?_ (fun other _ => same other) ?_
    · rintro actual rfl
      exact usual.elim
    · rintro ref rfl
      exact usual.elim
    · rw [same, usual.not_violates, Bool.or_false]
  cases move with
  | append | note =>
    exact coherent.frame formed rfl rfl rfl rfl rfl (fun _ => rfl) coherent.guards
  | openWindow key window windows fresh unused put =>
    exact coherent.frame formed rfl rfl rfl rfl rfl (fun _ => rfl) coherent.guards
  | openGroup groups =>
    exact coherent.frame formed rfl rfl rfl rfl rfl (fun _ => rfl) coherent.guards
  | openGuard group guard guards fresh free put =>
    refine coherent.frame formed rfl rfl rfl rfl rfl (fun _ => rfl) fun other found here => ?_
    by_cases same : other = group
    · subst same
      obtain rfl := Option.some.inj (put.get_self.symm.trans here)
      rw [free, formed.no_blockers fresh]
    · exact coherent.guards other found ((put.get_of_ne same).symm.trans here)
  | countGuard group old new guards found same put =>
    refine coherent.frame formed rfl rfl rfl rfl rfl (fun _ => rfl) fun other guard here => ?_
    by_cases equal : other = group
    · subst equal
      obtain rfl := Option.some.inj (put.get_self.symm.trans here)
      rw [same]
      exact coherent.guards other old found
    · exact coherent.guards other guard ((put.get_of_ne equal).symm.trans here)
  | admission admits => exact admits.coherent formed coherent
  | rewrite rewrites =>
    exact touched rewrites.touch rewrites.change
      (Database.quarantined_of_evidence rewrites.evidence)
  | ingest ref row evidence held bound fresh verified put =>
    refine coherent.frame formed rfl rfl rfl rfl rfl (fun id => ?_) coherent.guards
    refine Database.quarantined_put put (by rw [verified]; decide) (fun old found => ?_) id
    cases fresh.symm.trans found
  | violate stamp found verified touch change put objects adjustments => exact usual.elim
  | compensate stamp found verified touch change put counted unadjusted adjusts adjustments =>
    refine touched touch change (Database.quarantined_put put
      (fun impossible => by cases impossible) fun old was => ?_)
    obtain rfl := Option.some.inj (found.symm.trans was)
    rw [verified]
    decide

theorem Database.quarantined_violation {before after : Database} {ref : UUID}
    {row : InboxEvidence} {stamp : Time} (found : before.evidence.get ref = some row)
    (verified : row.evidenceState = .verified)
    (put : before.evidence.Puts ref
      { row with evidenceState := .quarantined, consumedAt := some stamp } after.evidence) :
    after.quarantined row.attemptId = true ∧
      ∀ other, other ≠ row.attemptId → after.quarantined other = before.quarantined other := by
  refine ⟨quarantined_iff.mpr ⟨ref, _, put.get_self, rfl, rfl⟩, fun other differ => ?_⟩
  rw [Bool.eq_iff_iff, quarantined_iff, quarantined_iff]
  constructor
  · rintro ⟨key, stored, here, named, held⟩
    by_cases same : key = ref
    · subst same
      obtain rfl := Option.some.inj (put.get_self.symm.trans here)
      exact absurd named.symm differ
    · exact ⟨key, stored, (put.get_of_ne same).symm.trans here, named, held⟩
  · rintro ⟨key, stored, here, named, held⟩
    have apart : key ≠ ref := by
      rintro rfl
      obtain rfl := Option.some.inj (found.symm.trans here)
      rw [verified] at held
      cases held
    exact ⟨key, stored, (put.get_of_ne apart).trans here, named, held⟩

/-! ## Runs -/

/-- A step that closes attempts in order: `Reconcile` finds no lost reservation, and
`LateCompensate` finds no violation while the attempt is on hold. -/
def State.closesInOrder (state : State) : Event → Bool
  | .reconcile caller _ =>
    match state.calls caller with
    | .replied id _ _ => (state.db.reservations.get id).all fun reservation =>
      decide (reservation.state ≠ .unknown)
    | _ => true
  | .lateCompensate _ _ id ref _ =>
    (state.db.violation id ref).isNone ||
      (state.db.attempts.get id).all fun attempt => decide (attempt.state ≠ .unknown)
  | _ => true

/-- In every run whose steps close attempts in order, every attempt has all its rows, they
are in step, and every retry guard counts its blockers. -/
theorem attempts_coherent {state : State}
    (reached : runtime.Reachable (fun state event => state.closesInOrder event = true) state) :
    state.db.WellFormed ∧ state.db.Coherent := by
  refine ⟨(reachable_valid reached).formed, ?_⟩
  refine reachable_invariant (fun manifests _ => Database.migrated_coherent manifests)
    (fun kind before after usual formed move => move.coherent usual formed) ?_ ?_ reached
  · intro state caller stamp id actual outcome after old new valid allowed phase rewrites coherent
    have same := Database.quarantined_of_evidence rewrites.evidence
    simp only [State.closesInOrder, phase, rewrites.touch.held.reservation, Option.all_some,
      decide_eq_true_eq] at allowed
    exact rewrites.touch.coherent_of_change rewrites.change valid.formed coherent
      (fun _ _ => allowed) (fun _ impossible => by cases impossible)
      (fun other _ => same other)
      ((same id).trans (Bool.or_false _).symm)
  · intro state seen stamp id ref revision after valid allowed violation named move coherent
    cases move with
    | rewrite rewrites => cases rewrites.plain
    | violate stamp found verified touch change put objects adjustments =>
      obtain ⟨row, here, rfl⟩ := named
      obtain rfl := Option.some.inj (here.symm.trans found)
      have known : (state.db.violation row.attemptId ref).isNone = false := by
        rw [Bool.eq_false_iff, ne_eq, Option.isNone_iff_eq_none]
        exact violation
      simp only [State.closesInOrder, known, Bool.false_or, touch.held.attempt, Option.all_some,
        decide_eq_true_eq] at allowed
      obtain ⟨marked, others⟩ := Database.quarantined_violation found verified put
      exact touch.coherent_of_change change valid.formed coherent
        (fun _ impossible => by cases impossible) (fun _ _ => allowed)
        others (marked.trans (Bool.or_true _).symm)

/-- A lost call whose hold ends before evidence in violation closes it. -/
def violatedAfterHold : List Event :=
  [.begin 0 (searchCall "first" "one" 1) 1, .reserve 0 0 ⟨10, 11, 0⟩, .dispatch 0 0 "backend",
    .markStaleAndClaim 99 99 0 (10 * second) (-1) "worker" second 5 [],
    .expireUnknown 99 (20 * second) (15 * second) 5,
    .insertVerifiedEvidence ⟨7, "udp", "backend", "OWNER_RESULT", "SUCCEEDED", "OK", "result", 1,
      some ["object"], sampleChecksum⟩,
    .lateCompensate 99 0 1 7 0]

theorem attempts_coherent_violatedAfterHold :
    ∃ state, replayTrace State.closesInOrder violatedAfterHold = some state ∧
      state.db.quarantined 1 = true ∧ state.db.blockers 11 = 1 ∧ state.db.Coherent := by
  obtain ⟨state, replayed, reached, checked⟩ := replayTrace_reachable State.closesInOrder
    violatedAfterHold
    (fun state => decide (state.db.quarantined 1 = true ∧ state.db.blockers 11 = 1))
    (by decide +kernel)
  obtain ⟨quarantined, blockers⟩ := of_decide_eq_true checked
  exact ⟨state, replayed, quarantined, blockers, (attempts_coherent reached).2⟩

/-- A call replies after a worker has lost it. -/
def repliedAfterLoss : List Event :=
  [.begin 0 (searchCall "first" "one" 0) 1, .reserve 0 0 ⟨10, 11, 0⟩, .dispatch 0 0 "backend",
    .execute 0 shortReply, .markStaleAndClaim 99 99 0 (10 * second) (-1) "worker" second 5 [],
    .reconcile 0 0]

/-- Evidence in violation closes a lost call during its hold. -/
def violatedDuringHold : List Event :=
  [.begin 0 (searchCall "first" "one" 1) 1, .reserve 0 0 ⟨10, 11, 0⟩, .dispatch 0 0 "backend",
    .markStaleAndClaim 99 99 0 (10 * second) (-1) "worker" second 5 [],
    .insertVerifiedEvidence ⟨7, "udp", "backend", "OWNER_RESULT", "SUCCEEDED", "OK", "result", 1,
      some ["object"], sampleChecksum⟩,
    .lateCompensate 99 0 1 7 0]

/-- The late reply leaves a succeeded attempt blocking its group for good; the early
violation leaves a failed attempt whose reservation is still lost. -/
theorem attempts_not_coherent :
    (∃ state, replayTrace (fun _ _ => true) repliedAfterLoss = some state ∧
      runtime.Reachable System.always state ∧ ¬ state.db.Coherent) ∧
    ∃ state, replayTrace (fun _ _ => true) violatedDuringHold = some state ∧
      runtime.Reachable System.always state ∧ ¬ state.db.Coherent := by
  constructor
  · obtain ⟨state, replayed, reached, checked⟩ := replayTrace_reachable (fun _ _ => true)
      repliedAfterLoss (fun state => (state.db.guards.get 11).any fun (guard : RetryGuard) =>
        decide (guard.blockingAttempts = 1 ∧ state.db.blockers 11 = 0)) (by decide +kernel)
    refine ⟨state, replayed, reached.mono fun _ _ _ => trivial, fun coherent => ?_⟩
    obtain ⟨guard, found, values⟩ := (Option.any_eq_true _ _).mp checked
    have counted := coherent.guards 11 guard found
    have differ := of_decide_eq_true values
    omega
  · obtain ⟨state, replayed, reached, checked⟩ := replayTrace_reachable (fun _ _ => true)
      violatedDuringHold (fun state => decide
        ((state.db.attempts.get 1).map (·.state) = some .failed ∧
          (state.db.reservations.get 1).map (·.state) = some .unknown)) (by decide +kernel)
    refine ⟨state, replayed, reached.mono fun _ _ _ => trivial, fun coherent => ?_⟩
    obtain ⟨failed, lost⟩ := of_decide_eq_true checked
    obtain ⟨attempt, found, state_eq⟩ := Option.map_eq_some_iff.mp failed
    obtain ⟨rows, held, rfl⟩ := (reachable_valid reached).formed.holds_of_attempt found
    rw [held.reservation, Option.map_some, Option.some.injEq] at lost
    have ended := ((coherent.attempts 1 rows held).terminal (by rw [state_eq]; rfl)).1
    rw [lost] at ended
    rcases ended with impossible | impossible <;> cases impossible

end OufMcp.Ledger
