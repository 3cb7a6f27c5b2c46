import OufMcp.Ledger.Operations

/-!
# The operational journal

A trigger on the attempts writes an audit row whenever an attempt enters or leaves
uncertainty.  Across a transaction an attempt keeps what the trigger looks at, or
makes one allowed state change with the rows the trigger writes for it.
-/

namespace OufMcp.Ledger

open Relational Transition

variable {id : UUID}

/-! ## Rows of the journal -/

def AuditEvent.lifecycleState (event : AuditEvent) : Option String :=
  match event.safeDetail with
  | .attemptUncertainty lifecycle _ _ _ _ _ _ => some lifecycle
  | _ => none

def AuditEvent.ownerRevision (event : AuditEvent) : Option Nat :=
  match event.safeDetail with
  | .attemptUncertainty _ _ _ _ _ revision _ => some revision
  | _ => none

/-- The operational rows of one attempt, in the order they were written. -/
def journal (id : UUID) (audit : List AuditEvent) : List AuditEvent :=
  audit.filter fun event => event.operational && decide (event.attemptId = some id)

theorem journal_append (id : UUID) (first second : List AuditEvent) :
    journal id (first ++ second) = journal id first ++ journal id second := by
  unfold journal
  exact List.filter_append ..

theorem journal_ordinary {extra : List AuditEvent}
    (ordinary : ∀ event ∈ extra, event.operational = false) (id : UUID) :
    journal id extra = [] := by
  refine List.filter_eq_nil_iff.mpr fun event member => ?_
  rw [ordinary event member]
  simp

/-! ## What the trigger writes -/

def AttemptState.lifecycle : AttemptState → String
  | .unknown => "RECOVERING"
  | .unresolved => "OPEN"
  | _ => "RESOLVED"

def ToolAttempt.shown (attempt : ToolAttempt) : AttemptState × Nat × Time × String × String :=
  (attempt.state, attempt.lockVersion, attempt.unknownSince.getD attempt.admittedAt,
    attempt.servicePrincipalId, attempt.manifestChecksum)

variable {old : Option ToolAttempt} {new : ToolAttempt}

/-- A state change that the transactions make: attempts start as admitted, and an
uncertain attempt does not go back to one that is waiting for its reply. -/
def Legal (old : Option AttemptState) (new : AttemptState) : Prop :=
  (old = none → new = .admitted) ∧
    (old.any (·.uncertain) = true → new ≠ .admitted ∧ new ≠ .running)

theorem capture_mem {event : AuditEvent}
    (member : event ∈ captureOperationalAttemptAudit id old new) :
    event.operational = true ∧ event.attemptId = some id := by
  unfold captureOperationalAttemptAudit at member
  simp only [List.mem_ite_nil_left] at member
  obtain ⟨-, member⟩ := member
  unfold AuditEvent.operational
  cases shape : new.state with
  | admitted | running =>
    rw [shape] at member
    cases member
  | unknown | unresolved | succeeded | failed =>
    rw [shape] at member
    rw [List.mem_singleton.mp member]
    refine ⟨?_, rfl⟩
    dsimp only
    decide

theorem journal_capture_self (id : UUID) (old : Option ToolAttempt) (new : ToolAttempt) :
    journal id (captureOperationalAttemptAudit id old new) =
      captureOperationalAttemptAudit id old new := by
  refine List.filter_eq_self.mpr fun event member => ?_
  obtain ⟨operational, same⟩ := capture_mem member
  rw [operational, same]
  simp

theorem journal_capture_other {id other : UUID} (differ : other ≠ id) (old : Option ToolAttempt)
    (new : ToolAttempt) : journal other (captureOperationalAttemptAudit id old new) = [] := by
  refine List.filter_eq_nil_iff.mpr fun event member => ?_
  rw [(capture_mem member).2]
  simp [Ne.symm differ]

theorem capture_same {old new : ToolAttempt} (same : new.state = old.state) :
    captureOperationalAttemptAudit id (some old) new = [] := by
  unfold captureOperationalAttemptAudit
  simp [same]

theorem capture_congr {a b : Option ToolAttempt} {c d : ToolAttempt}
    (old : a.map (·.state) = b.map (·.state)) (new : c.shown = d.shown) :
    captureOperationalAttemptAudit id a c = captureOperationalAttemptAudit id b d := by
  simp only [ToolAttempt.shown, Prod.mk.injEq] at new
  obtain ⟨state, version, seen, service, manifest⟩ := new
  unfold captureOperationalAttemptAudit
  rw [state, version, seen, service, manifest]
  cases a with
  | none =>
    cases b with
    | none => rfl
    | some right => cases old
  | some left =>
    cases b with
    | none => cases old
    | some right =>
      have same : left.state = right.state := Option.some.inj old
      simp only [same]

/-- A change into or out of uncertainty leaves one row, any other change none. -/
theorem capture_cases (legal : Legal (old.map (·.state)) new.state)
    (changed : old.map (·.state) ≠ some new.state) :
    ((old.any (·.state.uncertain) = true ∨ new.state.uncertain = true) ∧
      ∃ row, captureOperationalAttemptAudit id old new = [row] ∧
        row.lifecycleState = some new.state.lifecycle ∧
        row.ownerRevision = some new.lockVersion) ∨
    (old.any (·.state.uncertain) = false ∧ new.state.uncertain = false ∧
      captureOperationalAttemptAudit id old new = []) := by
  cases old with
  | none =>
    have fresh := legal.1 rfl
    right
    refine ⟨rfl, by rw [fresh]; rfl, ?_⟩
    unfold captureOperationalAttemptAudit
    simp [fresh, AttemptState.uncertain]
  | some previous =>
    have differ : new.state ≠ previous.state := fun same => changed (congrArg some same.symm)
    have kept := legal.2
    simp only [Option.map_some, Option.any_some] at kept ⊢
    unfold captureOperationalAttemptAudit
    cases was : previous.state.uncertain <;> cases shape : new.state <;>
      simp_all [AttemptState.uncertain, AttemptState.lifecycle, AuditEvent.lifecycleState,
        AuditEvent.ownerRevision]

/-! ## What a transaction leaves in the journal -/

/-- One attempt across a transaction, with what the journal says about it. -/
inductive Logged (same : ToolAttempt → ToolAttempt → Prop)
    (allowed : Option AttemptState → AttemptState → Prop) (id : UUID) (before after : Database) :
    Prop where
  | absent (was : before.attempts.get id = none) (is : after.attempts.get id = none)
      (silent : journal id after.audit = journal id before.audit)
  | kept {old new : ToolAttempt} (was : before.attempts.get id = some old)
      (is : after.attempts.get id = some new) (still : same old new)
      (silent : journal id after.audit = journal id before.audit)
  | changed {old : Option ToolAttempt} {new : ToolAttempt} (was : before.attempts.get id = old)
      (is : after.attempts.get id = some new)
      (step : allowed (old.map (·.state)) new.state)
      (differ : old.map (·.state) ≠ some new.state)
      (newer : ∀ previous, old = some previous → previous.lockVersion < new.lockVersion)
      (written : journal id after.audit =
        journal id before.audit ++ captureOperationalAttemptAudit id old new)

def Alike (old new : ToolAttempt) : Prop := new.shown = old.shown

def Level (old new : ToolAttempt) : Prop :=
  new.state = old.state ∧ old.lockVersion ≤ new.lockVersion

theorem Alike.level {old new : ToolAttempt} (alike : Alike old new) : Level old new := by
  unfold Alike ToolAttempt.shown at alike
  obtain ⟨state, version, -⟩ := Prod.mk.inj alike |>.imp id Prod.mk.inj
  exact ⟨state, version.ge⟩

def Logs (same : ToolAttempt → ToolAttempt → Prop)
    (allowed : Option AttemptState → AttemptState → Prop) (before after : Database) : Prop :=
  ∀ id, Logged same allowed id before after

section

variable {same : ToolAttempt → ToolAttempt → Prop}
  {allowed : Option AttemptState → AttemptState → Prop} {before after : Database}

theorem Logs.mono {wider : ToolAttempt → ToolAttempt → Prop}
    {more : Option AttemptState → AttemptState → Prop} (logs : Logs same allowed before after)
    (still : ∀ old new, same old new → wider old new)
    (steps : ∀ old new, allowed old new → more old new) : Logs wider more before after := by
  intro id
  cases logs id with
  | absent was is silent => exact .absent was is silent
  | kept was is held silent => exact .kept was is (still _ _ held) silent
  | changed was is step differ newer written =>
    exact .changed was is (steps _ _ step) differ newer written

theorem Logs.of_quiet (refl : ∀ attempt, same attempt attempt)
    (attempts : after.attempts = before.attempts) (audit : before.Appends [] after) :
    Logs same allowed before after := by
  obtain ⟨extra, audit, ordinary⟩ := audit
  rw [List.append_nil] at audit
  intro id
  have silent : journal id after.audit = journal id before.audit := by
    rw [audit, journal_append, journal_ordinary ordinary, List.append_nil]
  cases found : before.attempts.get id with
  | none => exact .absent found (attempts ▸ found) silent
  | some attempt => exact .kept found (attempts ▸ found) (refl attempt) silent

/-- Attempts but one stay as they are, and the trigger records that one. -/
theorem Logs.of_write (refl : ∀ attempt, same attempt attempt)
    (found : before.attempts.get id = old) (written : after.attempts.get id = some new)
    (others : ∀ other, other ≠ id → after.attempts.get other = before.attempts.get other)
    (audit : before.Appends (captureOperationalAttemptAudit id old new) after)
    (step : (∃ previous, old = some previous ∧ same previous new ∧ new.state = previous.state) ∨
      (allowed (old.map (·.state)) new.state ∧ old.map (·.state) ≠ some new.state ∧
        ∀ previous, old = some previous → previous.lockVersion < new.lockVersion)) :
    Logs same allowed before after := by
  obtain ⟨extra, audit, ordinary⟩ := audit
  intro other
  by_cases here : other = id
  · subst here
    have appended : journal other after.audit =
        journal other before.audit ++ captureOperationalAttemptAudit other old new := by
      rw [audit, journal_append, journal_append, journal_ordinary ordinary, List.append_nil,
        journal_capture_self]
    rcases step with ⟨previous, rfl, still, level⟩ | ⟨moves, differ, newer⟩
    · rw [capture_same level, List.append_nil] at appended
      exact .kept found written still appended
    · exact .changed found written moves differ newer appended
  · have silent : journal other after.audit = journal other before.audit := by
      rw [audit, journal_append, journal_append, journal_ordinary ordinary, List.append_nil,
        journal_capture_other here, List.append_nil]
    have unchanged := others other here
    cases there : before.attempts.get other with
    | none => exact .absent there (unchanged.trans there) silent
    | some attempt => exact .kept there (unchanged.trans there) (refl attempt) silent

end

theorem Alike.refl (attempt : ToolAttempt) : Alike attempt attempt := rfl

theorem Logs.refl {allowed : Option AttemptState → AttemptState → Prop} (db : Database) :
    Logs Alike allowed db db :=
  .of_quiet Alike.refl rfl (.of_eq (List.append_nil _).symm)

/-- Transactions whose changes do not chain are logged as one. -/
theorem Logs.trans {allowed : Option AttemptState → AttemptState → Prop}
    {before middle after : Database}
    (single : ∀ a b c, allowed a b → ¬ allowed (some b) c)
    (first : Logs Alike allowed before middle) (second : Logs Alike allowed middle after) :
    Logs Alike allowed before after := by
  intro id
  cases first id with
  | absent was is silent =>
    cases second id with
    | absent _ now quiet => exact .absent was now (quiet.trans silent)
    | kept there => cases is.symm.trans there
    | changed there now step differ newer written =>
      rw [is] at there
      subst there
      exact .changed was now step differ newer (written.trans (by rw [silent]))
  | @kept old middleRow was is still silent =>
    cases second id with
    | absent there => cases is.symm.trans there
    | kept there now again quiet =>
      obtain rfl := Option.some.inj (is.symm.trans there)
      exact .kept was now (again.trans still) (quiet.trans silent)
    | changed there now step differ newer written =>
      rw [is] at there
      subst there
      have level := still.level
      have version : old.lockVersion = middleRow.lockVersion := by
        simp only [Alike, ToolAttempt.shown, Prod.mk.injEq] at still
        exact still.2.1.symm
      simp only [Option.map_some, level.1] at step differ
      refine .changed was now step differ ?_ ?_
      · intro previous equal
        rw [← Option.some.inj equal, version]
        exact newer middleRow rfl
      · rw [written, silent]
        rw [capture_congr (a := some middleRow) (b := some old) ?_ rfl]
        exact congrArg some level.1
  | @changed old middleRow was is step differ newer written =>
    cases second id with
    | absent there => cases is.symm.trans there
    | @kept previous new there now still quiet =>
      obtain rfl := Option.some.inj (is.symm.trans there)
      have level := still.level
      have version : new.lockVersion = middleRow.lockVersion := by
        simp only [Alike, ToolAttempt.shown, Prod.mk.injEq] at still
        exact still.2.1
      refine .changed was now (level.1 ▸ step) (level.1 ▸ differ) ?_ ?_
      · intro earlier equal
        rw [version]
        exact newer earlier equal
      · rw [quiet, written]
        rw [capture_congr (a := old) (b := old) rfl still]
    | changed there now more =>
      rw [is] at there
      subst there
      exact absurd more (single _ _ _ step)

/-! ## The moves -/

theorem Level.refl (attempt : ToolAttempt) : Level attempt attempt := ⟨rfl, le_refl _⟩

/-- A change that ends an attempt, or makes it unresolved, is legal from any state. -/
theorem legal_of_final {old new : AttemptState} (final : new ≠ .admitted ∧ new ≠ .running) :
    Legal (some old) new := by
  refine ⟨?_, fun _ => final⟩
  intro impossible
  cases impossible

theorem legal_of_certain {old new : AttemptState} (certain : old.uncertain = false) :
    Legal (some old) new := by
  refine ⟨?_, ?_⟩
  · exact nofun
  · intro uncertain
    rw [Option.any_some, certain] at uncertain
    cases uncertain

/-- The state changes of the moves that one transaction may make for several attempts; the others
are legal. -/
def Kind.steps : Kind → Option AttemptState → AttemptState → Prop
  | .admission, old, new => old = none ∧ new = .admitted
  | .releaseAdmission, old, new => old = some .admitted ∧ new = .failed
  | .lose, old, new => old = some .running ∧ new = .unknown
  | .expire, old, new => old = some .unknown ∧ new = .unresolved
  | .prepare, _, _ | .hold, _, _ => False
  | _, old, new => Legal old new

theorem Kind.steps_legal {kind : Kind} {old : Option AttemptState} {new : AttemptState}
    (steps : kind.steps old new) : Legal old new := by
  cases kind with
  | admission =>
    obtain ⟨rfl, rfl⟩ := steps
    exact ⟨fun _ => rfl, fun impossible => by cases impossible⟩
  | releaseAdmission | lose =>
    obtain ⟨rfl, rfl⟩ := steps
    exact legal_of_certain rfl
  | expire =>
    obtain ⟨rfl, rfl⟩ := steps
    exact legal_of_final ⟨by decide, by decide⟩
  | prepare | hold => exact steps.elim
  | _ => exact steps

theorem conclude_final {attempt : ToolAttempt} {stamp : Time} {state : AttemptState}
    {dispatchState : DispatchState} {code : String} {resultRef : Option String}
    (final : state = .succeeded ∨ state = .failed) (uncertain : attempt.state.uncertain = true) :
    Legal (some attempt.state) (attempt.conclude stamp state dispatchState code resultRef).state ∧
      (attempt.conclude stamp state dispatchState code resultRef).state ≠ attempt.state ∧
      attempt.lockVersion <
        (attempt.conclude stamp state dispatchState code resultRef).lockVersion := by
  have terminal : (attempt.conclude stamp state dispatchState code resultRef).state = state := rfl
  rw [terminal]
  refine ⟨legal_of_final ?_, ?_, Nat.lt_succ_self _⟩
  · rcases final with rfl | rfl <;> exact ⟨by decide, by decide⟩
  · rintro rfl
    rcases final with same | same <;> rw [same] at uncertain <;> cases uncertain

/-- A change keeps the state of the attempt, or makes a step of its kind.  Only a late settlement
keeps the state and writes the shown columns. -/
theorem Change.steps {kind : Kind} {old new : Rows} (change : Change kind old new) :
    (Level old.attempt new.attempt ∧ new.attempt.state = old.attempt.state ∧
      ((∀ actual, kind ≠ .settle actual) → Alike old.attempt new.attempt)) ∨
    (kind.steps (some old.attempt.state) new.attempt.state ∧
      new.attempt.state ≠ old.attempt.state ∧
      old.attempt.lockVersion < new.attempt.lockVersion) := by
  cases change with
  | dispatch backendRequestId leaseUntil admitted =>
    refine .inr ⟨?_, ?_, Nat.lt_succ_self _⟩
    · rw [admitted]
      exact legal_of_certain rfl
    · rw [admitted]
      simp [ToolAttempt.dispatch]
  | settle actual outcome stamp =>
    by_cases same : (old.attempt.acknowledge outcome stamp).state = old.attempt.state
    · exact .inl ⟨⟨same, Nat.le_succ _⟩, same, fun other => absurd rfl (other actual)⟩
    · refine .inr ⟨legal_of_final ?_, same, Nat.lt_succ_self _⟩
      unfold ToolAttempt.acknowledge
      dsimp only
      split <;> exact ⟨by decide, by decide⟩
  | releaseAdmission stamp admitted =>
    refine .inr ⟨⟨congrArg some admitted, rfl⟩, ?_, Nat.lt_succ_self _⟩
    rw [admitted]
    simp [ToolAttempt.failUndispatched]
  | lose now debt running =>
    refine .inr ⟨⟨congrArg some running, rfl⟩, ?_, Nat.lt_succ_self _⟩
    rw [running]
    simp [ToolAttempt.lose]
  | hold owner unknown => cases owner <;> exact .inl ⟨Level.refl _, rfl, fun _ => rfl⟩
  | recover evidence stamp unknown =>
    refine .inr ⟨legal_of_final ?_, ?_, Nat.lt_succ_self _⟩
    · unfold ToolAttempt.recover
      dsimp only
      split <;> exact ⟨by decide, by decide⟩
    · rw [unknown]
      unfold ToolAttempt.recover
      dsimp only
      split <;> decide
  | expire now unknown =>
    refine .inr ⟨⟨congrArg some unknown, rfl⟩, ?_, Nat.lt_succ_self _⟩
    rw [unknown]
    simp [ToolAttempt.expire]
  | violate ref stamp code resultRef debt uncertain =>
    exact .inr (conclude_final (.inr rfl) uncertain)
  | compensateUnresolved stamp ref inserted terminal dispatchState code resultRef debt unresolved =>
    refine .inr (conclude_final ?_ (by rw [unresolved]; rfl))
    cases terminal <;> simp [TerminalState.attemptState]
  | compensateUnknown stamp ref inserted terminal code resultRef debt unknown =>
    refine .inr (conclude_final ?_ (by rw [unknown]; rfl))
    cases terminal <;> simp [TerminalState.attemptState]

theorem Touches.logs {kind : Kind} {before after : Database} {old new : Rows}
    {same : ToolAttempt → ToolAttempt → Prop} (touch : Touches id before after old new)
    (change : Change kind old new) (refl : ∀ attempt, same attempt attempt)
    (still : Level old.attempt new.attempt →
      ((∀ actual, kind ≠ .settle actual) → Alike old.attempt new.attempt) →
      same old.attempt new.attempt) : Logs same kind.steps before after := by
  refine .of_write refl touch.held.attempt touch.attempts.get_self
    (fun _ differ => touch.attempts.get_of_ne differ) touch.audit ?_
  rcases change.steps with ⟨level, state, alike⟩ | ⟨steps, differ, newer⟩
  · exact .inl ⟨_, rfl, still level alike, state⟩
  · refine .inr ⟨steps, fun equal => differ (Option.some.inj equal).symm, ?_⟩
    rintro _ ⟨⟩
    exact newer

theorem Admits.logs {req : AdmissionRequest} {rows : Rows} {before after : Database}
    {same : ToolAttempt → ToolAttempt → Prop} (refl : ∀ attempt, same attempt attempt)
    (admits : Admits id req rows before after) : Logs same Kind.admission.steps before after := by
  obtain ⟨now, fresh⟩ := admits.attempt
  refine .of_write refl admits.absent.attempt admits.attempts.get_self
    (fun _ differ => admits.attempts.get_of_ne differ) admits.audit (.inr ⟨?_, ?_, ?_⟩)
  · rw [fresh]
    exact ⟨rfl, rfl⟩
  · intro impossible
    cases impossible
  · intro previous impossible
    cases impossible

theorem Move.logs {kind : Kind} {before after : Database}
    {same : ToolAttempt → ToolAttempt → Prop} (move : Move kind before after)
    (quiet : kind ≠ .append) (refl : ∀ attempt, same attempt attempt)
    (still : ∀ old new : ToolAttempt, Level old new →
      ((∀ actual, kind ≠ .settle actual) → Alike old new) → same old new) :
    Logs same kind.steps before after := by
  have silent : ∀ {db : Database}, db.attempts = before.attempts → before.Appends [] db →
      Logs same kind.steps before db := .of_quiet refl
  have nothing : before.audit = before.audit ++ [] := (List.append_nil _).symm
  cases move with
  | append => exact absurd rfl quiet
  | note incidents extra ordinary => exact silent rfl ⟨extra, by simp, ordinary⟩
  | admission admits => exact admits.logs refl
  | rewrite rewrites => exact rewrites.touch.logs rewrites.change refl (still _ _)
  | violate stamp found verified touch change => exact touch.logs change refl (still _ _)
  | compensate stamp found verified touch change => exact touch.logs change refl (still _ _)
  | _ => exact silent rfl (.of_eq nothing)

theorem Move.logged {kind : Kind} {before after : Database} (move : Move kind before after)
    (quiet : kind ≠ .append) : Logs Level Legal before after :=
  (move.logs quiet Level.refl fun _ _ level _ => level).mono (fun _ _ still => still)
    fun _ _ => Kind.steps_legal

/-- A chain of moves whose state changes do not chain is logged as one. -/
theorem Moves.logged {allowed : Kind → Prop} {before after : Database}
    (moves : Moves allowed before after) (formed : before.WellFormed)
    (quiet : ∀ kind, allowed kind → kind ≠ .append ∧ ∀ actual, kind ≠ .settle actual)
    (single : ∀ first second, allowed first → allowed second →
      ∀ a b c, first.steps a b → ¬ second.steps (some b) c) : Logs Level Legal before after := by
  have chain := (moves.induction formed
    (R := Logs Alike fun old new => ∃ kind, allowed kind ∧ kind.steps old new) Logs.refl
    (fun _ _ _ => Logs.trans ?_) ?_).2
  · refine chain.mono (fun _ _ => Alike.level) ?_
    rintro old new ⟨kind, -, steps⟩
    exact Kind.steps_legal steps
  · rintro a b c ⟨first, member, steps⟩ ⟨second, also, again⟩
    exact single first second member also a b c steps again
  · intro kind a b member _ move
    obtain ⟨silent, unsettled⟩ := quiet kind member
    exact (move.logs silent Alike.refl fun _ _ _ alike => alike unsettled).mono
      (fun _ _ still => still) fun _ _ steps => ⟨kind, member, steps⟩

/-! ## The operations -/

/-- The audit rows that callers of the store append are of other types. -/
def Operation.ordinary : Operation → Bool
  | .audit event => !event.operational
  | _ => true

/-- Every operation is logged, and one that fails leaves nothing. -/
theorem operation_logs {state : StoreState} (valid : state.Valid) {operation : Operation}
    (ordinary : operation.ordinary = true) :
    Logs Level Legal state.db (state.step operation).db := by
  have formed := valid.formed
  have still : Logs Level Legal state.db state.db :=
    .of_quiet Level.refl rfl (.of_eq (List.append_nil _).symm)
  unfold StoreState.step
  cases performed : state.perform operation with
  | none => exact still
  | some db =>
    have moves := perform_moves valid.sound performed
    cases operation with
    | reserve | markStaleAndClaim | expireUnknown =>
      refine moves.logged formed ?_ ?_
      · intro kind allowed
        cases kind <;> simp_all [Operation.allows, Kind.stale]
      · intro first second one two a b c
        cases first <;> cases second <;>
          simp_all [Operation.allows, Kind.stale, Kind.steps]
    | dispatch stamp id backendRequestId lease expected =>
      obtain ⟨old, new, rewrites⟩ := markRunning_rewrites formed (toOption_eq_some.mp performed)
      exact (Move.rewrite rewrites).logged (by simp)
    | reconcile stamp id actual outcome =>
      rcases reconcile_rewrites formed (toOption_eq_some.mp performed) with
        rfl | ⟨old, new, rewrites⟩
      · exact still
      · exact (Move.rewrite rewrites).logged (by simp)
    | audit event =>
      have done := toOption_eq_some.mp performed
      unfold Store.appendAudit at done
      simp only [bind_eq_ok, ensure_eq_ok, exists_const, pure_eq_ok] at done
      obtain ⟨-, -, rfl⟩ := done
      refine .of_quiet Level.refl rfl ⟨[event], by simp, ?_⟩
      intro appended member
      rw [List.mem_singleton.mp member]
      simpa [Operation.ordinary] using ordinary
    | maintain now =>
      rw [maintain_eq formed (toOption_eq_some.mp performed)]
      exact still
    | applyOwnerEvidence stamp id worker evidence =>
      rcases applyOwnerEvidence_rewrites formed (toOption_eq_some.mp performed) with
        rfl | ⟨old, new, rewrites⟩ | ⟨-, old, new, rewrites⟩
      · exact still
      · exact (Move.rewrite rewrites).logged (by simp)
      · exact (Move.rewrite rewrites).logged (by simp)
    | insertVerifiedEvidence input =>
      obtain ⟨result, done⟩ := map_snd_toOption performed
      rcases insertVerifiedEvidence_move formed done with rfl | move
      · exact still
      · exact move.logged (by simp)
    | lateCompensate seen stamp id ref expectedRevision =>
      obtain ⟨result, done⟩ := map_snd_toOption performed
      rcases lateCompensate_move formed done with
        rfl | note | ⟨-, -, ⟨-, violate⟩ | ⟨inserted, compensate⟩⟩
      · exact still
      · exact note.logged (by simp)
      · exact violate.logged (by simp)
      · exact compensate.logged (by simp)
    | repairDebtCache id =>
      obtain ⟨delta, done⟩ := map_snd_toOption performed
      rw [(repairDebtCache_eq valid.cached done).2]
      exact still

end OufMcp.Ledger
