import OufMcp.Ledger.Debt

/-!
# Ceilings of the operational control windows

A control window admits at most its maximum, and no later change adds to what the
window has reserved and consumed, as long as a settlement charges no more bytes
than were reserved.  The gateway client reads one byte more than that.
-/

namespace OufMcp.Ledger

open Relational Transition

def Controlled (policyRef : String) : Prop :=
  ∃ manifestChecksum, policyRef = operationalControlPolicy manifestChecksum

/-- A digest is not the policy of a control window: it has no colon. -/
theorem Controlled.not_hexDigest {policyRef : String} (controlled : Controlled policyRef) :
    hexDigest policyRef = false := by
  obtain ⟨checksum, rfl⟩ := controlled
  rw [Bool.eq_false_iff]
  intro digest
  unfold hexDigest at digest
  rw [Bool.and_eq_true, List.all_eq_true] at digest
  have colon : ':' ∈ (operationalControlPolicy checksum).toList := by
    unfold operationalControlPolicy
    simp [String.toList_append]
  have impossible := digest.2 ':' colon
  revert impossible
  decide

/-- What admission checked for a request that a control window admitted. -/
structure AdmissionRequest.UnderControl (req : AdmissionRequest) : Prop where
  reads : isOperationalControlRead req.capabilityId req.operationClass = true
  toolCalls : req.maximum.toolCalls = 1
  resultBytes : 1 ≤ req.maximum.resultBytes ∧ req.maximum.resultBytes ≤ 512 * 2 ^ 10
  distinctObjects : 0 ≤ req.maximum.distinctObjects ∧ req.maximum.distinctObjects ≤ 100

theorem admissionPolicy_controlled {req : AdmissionRequest} {policyRef : String} {limit : Cost}
    (controlled : Controlled policyRef) (digest : hexDigest req.manifestChecksum = true)
    (passed : Store.admissionPolicy req = .ok (policyRef, limit)) :
    limit = operationalControlMaximum ∧ req.UnderControl := by
  unfold Store.admissionPolicy at passed
  obtain ⟨_, -, budget⟩ := bind_eq_ok.mp passed
  unfold admissionWindowBudget at budget
  split at budget
  · cases budget
    rw [controlled.not_hexDigest] at digest
    cases digest
  · split at budget
    next => cases budget
    next supported =>
      cases budget
      simp only [not_or, Bool.not_eq_false] at supported
      exact ⟨rfl, supported.2.1, by omega, by omega, by omega⟩

/-! ## What a window has spent -/

/-- A control window within its maximum; the consumed counters are not negative, so that
the sums `Reserve` compares do not wrap. -/
structure BudgetWindow.Within (debt : Int) (window : BudgetWindow) : Prop where
  toolCalls : window.reservedToolCalls + window.consumedToolCalls ≤
    operationalControlMaximum.toolCalls
  resultBytes : window.reservedResultBytes + window.consumedResultBytes ≤
    operationalControlMaximum.resultBytes
  distinctObjects : window.reservedDistinctObjects + window.consumedDistinctObjects + debt ≤
    operationalControlMaximum.distinctObjects
  consumedCalls : 0 ≤ window.consumedToolCalls
  consumedBytes : 0 ≤ window.consumedResultBytes

/-- A change that adds nothing to what a window has reserved, consumed and is owed. -/
structure Spends (old new : Rows) : Prop where
  toolCalls : new.window.reservedToolCalls + new.window.consumedToolCalls ≤
    old.window.reservedToolCalls + old.window.consumedToolCalls
  resultBytes : new.window.reservedResultBytes + new.window.consumedResultBytes ≤
    old.window.reservedResultBytes + old.window.consumedResultBytes
  distinctObjects : new.window.reservedDistinctObjects + new.window.consumedDistinctObjects +
    new.owed ≤ old.window.reservedDistinctObjects + old.window.consumedDistinctObjects + old.owed
  consumedCalls : old.window.consumedToolCalls ≤ new.window.consumedToolCalls
  consumedBytes : old.window.consumedResultBytes ≤ new.window.consumedResultBytes

theorem BudgetWindow.Within.spends {old new : Rows} {before after : Int}
    (within : old.window.Within before) (spends : Spends old new)
    (debt : after + old.owed = before + new.owed) : new.window.Within after := by
  obtain ⟨calls, bytes, objects, consumedCalls, consumedBytes⟩ := within
  obtain ⟨spentCalls, spentBytes, spentObjects, moreCalls, moreBytes⟩ := spends
  exact ⟨by omega, by omega, by omega, by omega, by omega⟩

attribute [local simp] BudgetWindow.release BudgetWindow.consume BudgetWindow.settle
  BudgetWindow.recover BudgetWindow.moveToDebt BudgetWindow.compensate ObjectDebt.resolve
  ObjectDebt.opened

theorem Change.spends {kind : Kind} {old new : Rows} (change : Change kind old new)
    (charged : 0 ≤ old.reservation.reservedToolCalls)
    (sized : 0 ≤ old.reservation.reservedResultBytes)
    (objects : 0 ≤ old.reservation.reservedDistinctObjectsMax)
    (settles : ∀ actual, kind = .settle actual →
      (0 ≤ actual.toolCalls ∧ actual.toolCalls ≤ old.reservation.reservedToolCalls) ∧
      (0 ≤ actual.resultBytes ∧ actual.resultBytes ≤ old.reservation.reservedResultBytes)) :
    Spends old new := by
  cases change with
  | settle actual outcome stamp unsettled counted =>
    obtain ⟨calls, bytes⟩ := settles actual rfl
    constructor <;> simp [Rows.owed] <;> omega
  | lose now debt running reserved bound opened =>
    rcases opened with ⟨some, absent, rfl⟩ | ⟨zero, rfl⟩
    · constructor <;> simp [Rows.owed, absent]
      omega
    · constructor <;> simp [Rows.owed]
      omega
  | recover evidence stamp unknown uncertain lost calls bytes none blocked =>
    by_cases sent : evidence.outcome = .notDispatched <;> constructor <;>
      simp [Rows.owed, OwnerEvidence.consumeCalls, OwnerEvidence.consumeBytes, sent] <;> omega
  | compensateUnresolved stamp ref inserted terminal dispatchState code resultRef debt unresolved
      owed active covered counted blocked =>
    constructor <;> simp [Rows.owed, owed, active]
    omega
  | compensateUnknown stamp ref inserted terminal code resultRef debt unknown uncertain lost owed
      active covered counted blocked =>
    constructor <;> simp [Rows.owed, owed, active] <;> omega
  | _ => constructor <;> simp [Rows.owed] <;> omega

/-! ## The whole database -/

def Rows.controlRead (rows : Rows) : Bool :=
  isOperationalControlRead rows.claim.key.capabilityId rows.claim.key.operationClass

/-- Every control window is within its maximum. -/
structure Database.Capped (db : Database) : Prop where
  manifests : ∀ checksum ∈ db.manifestSnapshot, hexDigest checksum = true
  sized : ∀ id rows, db.Holds id rows → Controlled rows.window.policyRef →
    rows.controlRead = true ∧ 0 ≤ rows.reservation.reservedResultBytes
  within : ∀ id window, db.windows.get id = some window → Controlled window.policyRef →
    window.Within (db.activeDebt id)

theorem Database.migrated_capped {manifests : List String}
    (checked : ∀ checksum ∈ manifests, hexDigest checksum = true) :
    (Database.migrated manifests).Capped where
  manifests := checked
  sized id rows held := by cases held.attempt
  within id window found := by cases found

theorem Database.Capped.sized_later {before after : Database} (capped : before.Capped)
    (formed : before.WellFormed) (grown : before.Extends after)
    (absent : ∀ id, before.Absent id → after.Absent id) {id : UUID} {rows : Rows}
    (held : after.Holds id rows) (controlled : Controlled rows.window.policyRef) :
    rows.controlRead = true ∧ 0 ≤ rows.reservation.reservedResultBytes := by
  rcases formed.governed id with ⟨old, was, -⟩ | gone
  · obtain ⟨later, arrived, kept⟩ := grown _ _ was
    obtain rfl := arrived.unique held
    rw [kept.resultBytes, Rows.controlRead, kept.claimKey]
    exact capped.sized id old was (kept.policy ▸ controlled)
  · exact ((absent id gone).not_holds held).elim

theorem Touches.capped {id : UUID} {before after : Database} {kind : Kind} {old new : Rows}
    (touch : Touches id before after old new) (change : Change kind old new)
    (formed : before.WellFormed) (grown : before.Extends after) (capped : before.Capped)
    (settles : old.controlRead = true → ∀ actual, kind = .settle actual →
      (0 ≤ actual.toolCalls ∧ actual.toolCalls ≤ old.reservation.reservedToolCalls) ∧
      (0 ≤ actual.resultBytes ∧ actual.resultBytes ≤ old.reservation.reservedResultBytes)) :
    after.Capped := by
  have sound := formed.sound touch.held
  refine ⟨touch.manifests ▸ capped.manifests, fun other rows held controlled =>
    capped.sized_later formed grown (fun _ => touch.absent) held controlled, ?_⟩
  intro key window found controlled
  have debt := touch.activeDebt change sound key
  by_cases same : key = old.context.budgetWindowId
  · subst same
    obtain rfl := Option.some.inj (touch.windows.get_self.symm.trans found)
    rw [change.immutable.2.2.2.2.2.2.2] at controlled
    have charged := sound.charged
    obtain ⟨reads, sized⟩ := capped.sized id old touch.held controlled
    have spends := change.spends (by omega) sized
      (BudgetReservation.objects_nonneg touch.held.reservation) (settles reads)
    simp only [if_true] at debt
    exact (capped.within _ _ touch.held.window controlled).spends spends debt
  · rw [touch.windows.get_of_ne same] at found
    simp only [if_neg (Ne.symm same), add_zero] at debt
    rw [debt]
    exact capped.within key window found controlled

theorem int64_of_range {value : Int} (low : -2 ^ 63 ≤ value) (high : value < 2 ^ 63) :
    int64 value = value :=
  int64_of_bigint (decide_eq_true ⟨low, high⟩)

theorem BudgetWindow.ranges {table : Table UUID budgetWindow} {id : UUID} {window : BudgetWindow}
    (found : table.get id = some window) :
    -2 ^ 63 ≤ window.reservedToolCalls ∧ -2 ^ 63 ≤ window.reservedResultBytes ∧
      0 ≤ window.reservedDistinctObjects ∧ 0 ≤ window.consumedDistinctObjects := by
  have checked := Table.check_of_get found
  simp only [budgetWindow, bigint, Bool.and_eq_true, decide_eq_true_eq] at checked
  omega

/-- A control window that `Reserve` finds room in has room for the maximum: within the
ceilings the Go sums do not wrap. -/
theorem BudgetWindow.Within.reserve {window : BudgetWindow} {debt : Int} {req : AdmissionRequest}
    (within : window.Within debt) (owed : 0 ≤ debt) (small : req.UnderControl)
    (calls : -2 ^ 63 ≤ window.reservedToolCalls) (bytes : -2 ^ 63 ≤ window.reservedResultBytes)
    (objects : 0 ≤ window.reservedDistinctObjects ∧ 0 ≤ window.consumedDistinctObjects)
    (room : window.exceeded debt req.maximum operationalControlMaximum = false) :
    (window.reserve req.maximum).Within debt := by
  obtain ⟨callCap, byteCap, objectCap, consumedCalls, consumedBytes⟩ := within
  obtain ⟨-, oneCall, someBytes, someObjects⟩ := small
  unfold BudgetWindow.exceeded at room
  simp only [Bool.or_eq_false_iff, Bool.and_eq_false_iff, decide_eq_false_iff_not, gt_iff_lt,
    not_lt, operationalControlMaximum] at room callCap byteCap objectCap
  obtain ⟨⟨callRoom, byteRoom⟩, objectRoom⟩ := room
  rw [int64_of_range (show -2 ^ 63 ≤ window.reservedToolCalls + window.consumedToolCalls by omega)
    (by omega), int64_of_range (by omega) (by omega)] at callRoom
  rw [int64_of_range
    (show -2 ^ 63 ≤ window.reservedResultBytes + window.consumedResultBytes by omega) (by omega),
    int64_of_range (by omega) (by omega)] at byteRoom
  have enough : window.reservedDistinctObjects + window.consumedDistinctObjects + debt +
      req.maximum.distinctObjects ≤ 2400 := by
    rcases objectRoom with none | fits
    · omega
    · rw [int64_of_range
        (show -2 ^ 63 ≤ window.reservedDistinctObjects + window.consumedDistinctObjects by omega)
        (by omega), int64_of_range (show -2 ^ 63 ≤ window.reservedDistinctObjects +
          window.consumedDistinctObjects + debt by omega) (by omega),
        int64_of_range (by omega) (by omega)] at fits
      exact fits
  constructor <;> simp only [BudgetWindow.reserve, operationalControlMaximum] <;> omega

theorem Admits.capped {id : UUID} {req : AdmissionRequest} {rows : Rows}
    {before after : Database} (admits : Admits id req rows before after)
    (formed : before.WellFormed) (capped : before.Capped) : after.Capped := by
  obtain ⟨window, limit, reserved, was, policy, room⟩ := admits.window
  have samePolicy : rows.window.policyRef = window.policyRef := by
    rw [reserved]
    rfl
  have controls : Controlled rows.window.policyRef →
      limit = operationalControlMaximum ∧ req.UnderControl := fun controlled =>
    admissionPolicy_controlled (samePolicy ▸ controlled)
      (capped.manifests _ admits.registered) policy
  refine ⟨admits.manifests ▸ capped.manifests, ?_, ?_⟩
  · intro other own held controlled
    by_cases same : other = id
    · subst same
      obtain rfl := admits.holds.unique held
      obtain ⟨reads, -, small, -⟩ := (controls controlled).2
      rw [admits.reservation, Rows.controlRead, admits.claim]
      exact ⟨reads, by simp only [AdmissionRequest.newReservation]; omega⟩
    · rcases formed.governed other with ⟨old, earlier, -⟩ | absent
      · obtain ⟨later, arrived, own⟩ := admits.forward earlier
        obtain rfl := arrived.unique held
        rw [own.reservation, Rows.controlRead, own.claim]
        exact capped.sized other old earlier (own.policy ▸ controlled)
      · exact ((admits.absent_of_ne same absent).not_holds held).elim
  · intro key found here controlled
    have debt : after.activeDebt key = before.activeDebt key := by
      unfold Database.activeDebt
      rw [admits.debts]
    rw [debt]
    by_cases same : key = rows.context.budgetWindowId
    · subst same
      obtain rfl := Option.some.inj (admits.windows.get_self.symm.trans here)
      obtain ⟨rfl, small⟩ := controls controlled
      obtain ⟨calls, bytes, objects⟩ := BudgetWindow.ranges was
      rw [reserved]
      exact (capped.within _ window was (samePolicy ▸ controlled)).reserve
        (before.activeDebt_nonneg _) small calls bytes objects room
    · rw [admits.windows.get_of_ne same] at here
      exact capped.within key found here controlled

theorem Move.capped {kind : Kind} {before after : Database} (move : Move kind before after)
    (other : ∀ actual, kind ≠ .settle actual) (formed : before.WellFormed)
    (capped : before.Capped) : after.Capped := by
  have grown := move.extends
  have settles : ∀ {rows : Rows}, rows.controlRead = true → ∀ actual, kind = .settle actual →
      (0 ≤ actual.toolCalls ∧ actual.toolCalls ≤ rows.reservation.reservedToolCalls) ∧
      (0 ≤ actual.resultBytes ∧ actual.resultBytes ≤ rows.reservation.reservedResultBytes) :=
    fun _ actual same => absurd same (other actual)
  have stays : kind ≠ .admission → ∀ id, before.Absent id → after.Absent id := by
    intro quiet id gone
    rcases move.absent gone with still | ⟨admission, -⟩
    · exact still
    · exact absurd admission quiet
  cases move with
  | openWindow key window windows fresh unused put =>
    refine ⟨capped.manifests, fun id rows held controlled =>
      capped.sized_later formed grown (stays fun impossible => by cases impossible) held
        controlled, ?_⟩
    intro id found here controlled
    by_cases same : id = key
    · subst same
      obtain rfl := Option.some.inj (put.get_self.symm.trans here)
      have debt : Database.activeDebt { before with windows } id = 0 :=
        formed.activeDebt_fresh fresh
      rw [debt]
      constructor <;>
        simp [unused.1, unused.2, unused.3, unused.4, unused.5, unused.6,
          operationalControlMaximum]
    · exact capped.within id found ((put.get_of_ne same).symm.trans here) controlled
  | admission admits => exact admits.capped formed capped
  | rewrite rewrites => exact rewrites.touch.capped rewrites.change formed grown capped settles
  | violate stamp found verified touch change put objects adjustments =>
    exact touch.capped change formed grown capped settles
  | compensate stamp found verified touch change put counted unadjusted adjusts adjustments =>
    exact touch.capped change formed grown capped settles
  | _ =>
    exact ⟨capped.manifests, fun id rows held controlled =>
      capped.sized_later formed grown (stays fun impossible => by cases impossible) held
        controlled, capped.within⟩

/-! ## Runs -/

/-- A step whose gateway reply has no more bytes than the call may receive, if it is a control
read. -/
def State.repliesWithin (state : State) : Event → Bool
  | .execute caller reply =>
    match state.calls caller with
    | .dispatched call _ _ =>
      !isOperationalControlRead call.capabilityId call.operationClass ||
        decide ((reply.response.bodyLength : Int) ≤ call.maximum.resultBytes)
    | _ => true
  | _ => true

def State.Fits (state : State) : Prop :=
  ∀ caller id actual outcome, state.calls caller = .replied id actual outcome →
    ∃ rows, state.db.Holds id rows ∧ (rows.controlRead = true →
      actual.resultBytes ≤ rows.reservation.reservedResultBytes)

theorem step_fits {state next : State} {event : Event} (valid : state.Valid)
    (allowed : state.repliesWithin event = true) (stepped : state.step event = some next)
    (fits : state.Fits) : next.Fits := by
  intro caller id actual outcome phase
  have grown := (step_moves valid stepped).extends valid.formed
  rcases step_replied valid stepped phase with before | ⟨reply, call, request, rfl, waits, rfl⟩
  · obtain ⟨rows, held, small⟩ := fits caller id actual outcome before
    obtain ⟨later, arrived, kept⟩ := grown _ _ held
    refine ⟨later, arrived, ?_⟩
    rw [kept.resultBytes, Rows.controlRead, kept.claimKey]
    exact small
  · have follows := valid.follows caller
    rw [waits] at follows
    obtain ⟨rows, held, owns, -⟩ := follows
    obtain ⟨later, arrived, kept⟩ := grown _ _ held
    refine ⟨later, arrived, ?_⟩
    rw [kept.resultBytes, owns.bytes, Rows.controlRead, kept.claimKey, owns.key]
    intro reads
    have reads : isOperationalControlRead call.capabilityId call.operationClass = true := reads
    simp only [State.repliesWithin, waits, reads, Bool.not_true, Bool.false_or,
      decide_eq_true_eq] at allowed
    exact allowed

/-- In every run whose gateway replies to control reads stay within the size the call may receive,
every operational control window is within its ceilings. -/
theorem control_windows_within {state : State}
    (reached : runtime.Reachable (fun state event => state.repliesWithin event = true) state) :
    ∀ id window, state.db.windows.get id = some window → Controlled window.policyRef →
      window.reservedToolCalls + window.consumedToolCalls ≤ 24 ∧
      window.reservedResultBytes + window.consumedResultBytes ≤ 12 * 2 ^ 20 ∧
      window.reservedDistinctObjects + window.consumedDistinctObjects +
        state.db.activeDebt id ≤ 2400 := by
  have invariant : state.Fits ∧ state.db.Capped := by
    refine reached.induction (P := fun state => state.Fits ∧ state.db.Capped) ?_ ?_
    · rintro _ ⟨manifests, checked, rfl⟩
      exact ⟨fun _ _ _ _ impossible => (by cases impossible), Database.migrated_capped checked⟩
    · intro before event after earlier ⟨fits, capped⟩ allowed stepped
      have valid := reachable_valid earlier
      refine ⟨step_fits valid allowed stepped fits, ?_⟩
      refine step_preserves (P := Database.Capped) (fun state _ => state.Fits) ?_ ?_ ?_ valid fits
        stepped capped
      · intro kind before after usual formed move capped
        refine move.capped ?_ formed capped
        rintro actual rfl
        exact usual
      · intro state caller stamp id actual outcome after old new valid fits phase rewrites capped
        have follows := valid.follows caller
        rw [phase] at follows
        obtain ⟨oneCall, -, bytes, -⟩ := follows
        obtain ⟨rows, held, small⟩ := fits caller id actual outcome phase
        obtain rfl := rewrites.touch.held.unique held
        have charged := (valid.formed.sound rewrites.touch.held).charged
        refine rewrites.touch.capped rewrites.change valid.formed (Move.rewrite rewrites).extends
          capped ?_
        rintro reads _ ⟨⟩
        exact ⟨by omega, bytes, small reads⟩
      · intro state seen stamp id ref revision after valid _ violation named move capped
        exact move.capped (fun _ impossible => by cases impossible) valid.formed capped
  intro id window found controlled
  have within := invariant.2.within id window found controlled
  exact ⟨within.toolCalls, within.resultBytes, within.distinctObjects⟩

/-- A control read that may receive half a mebibyte. -/
def controlCall (number : Nat) : Invocation where
  budgetProfile := ""
  identity := ⟨"service", "principal", "tenant"⟩
  capabilityId := "ouf.gateway.operations.summary"
  owner := "gateway"
  operationClass := "READ"
  gatewayBindingRef := "gateway"
  manifestChecksum := sampleChecksum
  idempotencyKey := String.ofList (List.replicate number 'k')
  requestHash := sampleChecksum
  semanticFingerprint := String.ofList (List.replicate number 'f')
  correlationId := "correlation"
  window := minute
  timeout := 3 * second
  retryThreshold := 3
  maximum := { toolCalls := 1, distinctObjects := 100, resultBytes := 512 * 2 ^ 10 }

def controlAdmissions (count : Nat) : List Event :=
  (List.range count).flatMap fun number =>
    [.begin number (controlCall number) (BitVec.ofNat 128 (number + 1)),
      .reserve number 0
        ⟨BitVec.ofNat 128 (1000 + number), BitVec.ofNat 128 (2000 + number), 0⟩]

/-- The first control call is dispatched, replies with a body and is settled. -/
def controlReply (bodyLength : Nat) : List Event :=
  [.dispatch 0 0 "backend",
    .execute 0 { shortReply with response := { shortReply.response with bodyLength } },
    .reconcile 0 0]

theorem control_windows_within_twoCalls :
    ∃ state window, replayTrace State.repliesWithin
        (controlAdmissions 2 ++ controlReply (512 * 2 ^ 10)) = some state ∧
      state.db.windows.get 1000 = some window ∧ Controlled window.policyRef ∧
      window.consumedResultBytes = 512 * 2 ^ 10 ∧
      window.reservedToolCalls + window.consumedToolCalls ≤ 24 := by
  obtain ⟨state, replayed, reached, checked⟩ := replayTrace_reachable State.repliesWithin
    (controlAdmissions 2 ++ controlReply (512 * 2 ^ 10))
    (fun state => (state.db.windows.get 1000).any fun (window : BudgetWindow) =>
      decide (window.policyRef = operationalControlPolicy sampleChecksum ∧
        window.consumedResultBytes = 512 * 2 ^ 10)) (by decide +kernel)
  obtain ⟨window, found, values⟩ := (Option.any_eq_true _ _).mp checked
  obtain ⟨policy, consumed⟩ := of_decide_eq_true values
  exact ⟨state, window, replayed, found, ⟨_, policy⟩, consumed,
    (control_windows_within reached 1000 window found ⟨_, policy⟩).1⟩

/-- With all twenty-four calls admitted, one body that is a byte too long takes the window
over its ceiling: the call fails, and the byte is charged. -/
theorem controlReply_exceeds :
    ∃ state window, replayTrace (fun _ _ => true)
        (controlAdmissions 24 ++ controlReply (512 * 2 ^ 10 + 1)) = some state ∧
      runtime.Reachable System.always state ∧
      state.db.windows.get 1000 = some window ∧ Controlled window.policyRef ∧
      12 * 2 ^ 20 < window.reservedResultBytes + window.consumedResultBytes := by
  obtain ⟨state, replayed, reached, checked⟩ := replayTrace_reachable (fun _ _ => true)
    (controlAdmissions 24 ++ controlReply (512 * 2 ^ 10 + 1))
    (fun state => (state.db.windows.get 1000).any fun (window : BudgetWindow) =>
      decide (window.policyRef = operationalControlPolicy sampleChecksum ∧
        12 * 2 ^ 20 < window.reservedResultBytes + window.consumedResultBytes)) (by decide +kernel)
  obtain ⟨window, found, values⟩ := (Option.any_eq_true _ _).mp checked
  obtain ⟨policy, exceeds⟩ := of_decide_eq_true values
  exact ⟨state, window, replayed, reached.mono fun _ _ _ => trivial, found, ⟨_, policy⟩, exceeds⟩

end OufMcp.Ledger
