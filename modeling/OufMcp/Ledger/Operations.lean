import OufMcp.Ledger.Debt
import OufMcp.Ledger.Maintenance

/-!
# The store under arbitrary callers

The operations of the store with any arguments, in any order.  Nothing is assumed
about who calls them: a settlement may come at any time and for any attempt, an
admission may carry any policy.  Queries that take no lock may have seen any
database committed earlier.  The calls of the governed runtime are one way of
using the store.  `Store.Admit`, which nothing but tests calls, is left out: it alone
stores an attempt without an admission context, so in the states reached here `Maintain`
finds no attempt to change.
-/

namespace OufMcp.Ledger

open Relational Transition

variable {db : Database}

/-- The database and those committed before it. -/
structure StoreState where
  db : Database
  past : List Database

variable {state : StoreState}

inductive Operation where
  | reserve (now : Time) (fresh : Generated) (req : AdmissionRequest)
  | dispatch (stamp : Time) (id : UUID) (backendRequestId : String) (lease : Time)
      (expected : Nat)
  | reconcile (stamp : Time) (id : UUID) (actual : Cost) (outcome : AttemptOutcome)
  | audit (event : AuditEvent)
  | maintain (now : Time)
  | markStaleAndClaim (admissions dispatches : Nat) (stamp now admittedBefore : Time)
      (worker : String) (lease : Time) (limit : Nat) (locked : List UUID)
  | applyOwnerEvidence (stamp : Time) (id : UUID) (worker : String) (evidence : OwnerEvidence)
  | expireUnknown (seen : Nat) (now unknownBefore : Time) (limit : Nat)
  | insertVerifiedEvidence (input : Verified)
  | lateCompensate (seen : Nat) (stamp : Time) (id ref : UUID) (expectedRevision : Int)
  | repairDebtCache (id : UUID)
  deriving DecidableEq, Repr

namespace StoreState

def initial (manifestSnapshot : List String) : StoreState := ⟨.migrated manifestSnapshot, []⟩

/-- The database a query without locks saw. -/
def snapshot (state : StoreState) (index : Nat) : Database := (state.past[index]?).getD state.db

def perform (state : StoreState) : Operation → Option Database
  | .reserve now fresh req => (Store.reserveOnce state.db now fresh req).toOption.map (·.2)
  | .dispatch stamp id backendRequestId lease expected =>
    (Store.markRunning state.db stamp id backendRequestId lease expected).toOption
  | .reconcile stamp id actual outcome =>
    (Store.reconcile state.db stamp id actual outcome).toOption
  | .audit event => (Store.appendAudit state.db event).toOption
  | .maintain now => (Store.maintain state.db now).toOption
  | .markStaleAndClaim admissions dispatches stamp now admittedBefore worker lease limit locked =>
    (Store.markStaleAndClaim (state.snapshot admissions) (state.snapshot dispatches) state.db
      stamp now admittedBefore worker lease limit locked).toOption.map (·.2)
  | .applyOwnerEvidence stamp id worker evidence =>
    (Store.applyOwnerEvidence state.db stamp id worker evidence).toOption
  | .expireUnknown seen now unknownBefore limit =>
    (Store.expireUnknown (state.snapshot seen) state.db now unknownBefore limit).toOption
  | .insertVerifiedEvidence input =>
    (Store.insertVerifiedEvidence state.db input).toOption.map (·.2)
  | .lateCompensate seen stamp id ref expectedRevision =>
    (Store.lateCompensate (state.snapshot seen) state.db stamp id ref
      expectedRevision).toOption.map (·.2)
  | .repairDebtCache id => (Store.repairDebtCache state.db id).toOption.map (·.2)

def step (state : StoreState) (operation : Operation) : StoreState :=
  match state.perform operation with
  | some db => ⟨db, state.past ++ [state.db]⟩
  | none => state

end StoreState

/-- The store from its migration on. -/
def store : System StoreState Operation where
  initial state := ∃ manifests : List String,
    (∀ checksum ∈ manifests, hexDigest checksum = true) ∧ state = .initial manifests
  step state operation := some (state.step operation)

/-! ## What an operation commits -/

def Operation.allows : Operation → Kind → Prop
  | .reserve .., kind => kind = .prepare ∨ kind = .admission
  | .dispatch .., kind => kind = .dispatch
  | .reconcile _ _ actual _, kind => kind = .settle actual
  | .audit _, kind => kind = .append
  | .markStaleAndClaim .., kind => kind.stale
  | .applyOwnerEvidence .., kind => kind = .hold ∨ kind = .recover
  | .expireUnknown .., kind => kind = .expire
  | .insertVerifiedEvidence _, kind => kind = .ingest
  | .lateCompensate _ _ _ ref _, kind =>
    kind = .note ∨ kind = .violate ref ∨ ∃ inserted, kind = .compensate ref inserted
  | .maintain _, _ | .repairDebtCache _, _ => False

structure StoreState.Valid (state : StoreState) : Prop where
  formed : state.db.WellFormed
  earlier : ∀ past ∈ state.past, past.WellFormed ∧ past.Extends state.db
  cached : state.db.Cached
  wereCached : ∀ past ∈ state.past, past.Cached

theorem StoreState.initial_valid (manifests : List String) :
    (StoreState.initial manifests).Valid where
  formed := Database.migrated_wellFormed manifests
  earlier past member := by cases member
  cached := Database.migrated_cached manifests
  wereCached past member := by cases member

/-- What the operations need of the state they find. -/
structure StoreState.Sound (state : StoreState) : Prop where
  formed : state.db.WellFormed
  earlier : ∀ past ∈ state.past, past.WellFormed ∧ past.Precedes state.db
  cached : state.db.Cached

theorem StoreState.Valid.sound (valid : state.Valid) : state.Sound where
  formed := valid.formed
  earlier past member := by
    have earlier := valid.earlier past member
    exact ⟨earlier.1, earlier.2.precedes⟩
  cached := valid.cached

theorem StoreState.Sound.snapshot (sound : state.Sound) (index : Nat) :
    (state.snapshot index).WellFormed ∧ (state.snapshot index).Precedes state.db := by
  unfold StoreState.snapshot
  cases found : state.past[index]? with
  | none => exact ⟨sound.formed, (Database.Extends.refl _).precedes⟩
  | some past => exact sound.earlier past (List.mem_of_getElem? found)

theorem toOption_eq_some {ε α : Type} {result : Except ε α} {value : α} :
    result.toOption = some value ↔ result = .ok value := by
  cases result <;> simp [Except.toOption]

theorem map_snd_toOption {ε α β : Type} {result : Except ε (α × β)} {state : β}
    (committed : result.toOption.map (·.2) = some state) :
    ∃ value, result = .ok (value, state) := by
  obtain ⟨⟨value, _⟩, found, rfl⟩ := Option.map_eq_some_iff.mp committed
  exact ⟨value, toOption_eq_some.mp found⟩

theorem repairDebtCache_eq {db after : Database} {id : UUID} {delta : Int} (cached : db.Cached)
    (done : Store.repairDebtCache db id = .ok (delta, after)) : delta = 0 ∧ after = db := by
  unfold Store.repairDebtCache debtCacheDelta at done
  simp only [bind_eq_ok, demand_eq_ok, ensure_eq_ok, exists_const, pure_eq_ok] at done
  obtain ⟨window, found, -, _, ⟨-, rfl⟩, done⟩ := done
  rw [cached id window found, sub_self] at done
  rw [if_pos (by decide)] at done
  obtain ⟨rfl, rfl⟩ := Prod.mk.inj (pure_eq_ok.mp done)
  exact ⟨rfl, rfl⟩

theorem perform_moves {operation : Operation} (sound : state.Sound)
    (performed : state.perform operation = some db) : Moves operation.allows state.db db := by
  have formed := sound.formed
  cases operation with
  | reserve now fresh req =>
    obtain ⟨decision, done⟩ := map_snd_toOption performed
    rcases reserveOnce_cases formed done with ⟨-, rfl⟩ | ⟨-, -, middle, rows, moves, admits⟩
    · exact .refl
    · refine Moves.trans (Relation.ReflTransGen.mono ?_ _ _ moves)
        (.single (.admission admits) (.inr rfl))
      rintro a b ⟨kind, prepare, move⟩
      exact ⟨kind, .inl prepare, move⟩
  | dispatch stamp id backendRequestId lease expected =>
    obtain ⟨old, new, rewrites⟩ := markRunning_rewrites formed (toOption_eq_some.mp performed)
    exact .single (.rewrite rewrites) rfl
  | reconcile stamp id actual outcome =>
    rcases reconcile_rewrites formed (toOption_eq_some.mp performed) with
      rfl | ⟨old, new, rewrites⟩
    · exact .refl
    · exact .single (.rewrite rewrites) rfl
  | audit event => exact .single (appendAudit_move (toOption_eq_some.mp performed)) rfl
  | maintain now =>
    rw [maintain_eq formed (toOption_eq_some.mp performed)]
    exact .refl
  | markStaleAndClaim admissions dispatches stamp now admittedBefore worker lease limit locked =>
    obtain ⟨candidates, done⟩ := map_snd_toOption performed
    exact markStaleAndClaim_moves formed (sound.snapshot admissions) (sound.snapshot dispatches)
      done
  | applyOwnerEvidence stamp id worker evidence =>
    rcases applyOwnerEvidence_rewrites formed (toOption_eq_some.mp performed) with
      rfl | ⟨old, new, rewrites⟩ | ⟨-, old, new, rewrites⟩
    · exact .refl
    · exact .single (.rewrite rewrites) (.inl rfl)
    · exact .single (.rewrite rewrites) (.inr rfl)
  | expireUnknown seen now unknownBefore limit =>
    exact expireUnknown_moves formed (sound.snapshot seen) (toOption_eq_some.mp performed)
  | insertVerifiedEvidence input =>
    obtain ⟨result, done⟩ := map_snd_toOption performed
    rcases insertVerifiedEvidence_move formed done with rfl | move
    · exact .refl
    · exact .single move rfl
  | lateCompensate seen stamp id ref expectedRevision =>
    obtain ⟨result, done⟩ := map_snd_toOption performed
    rcases lateCompensate_move formed done with
      rfl | note | ⟨-, -, ⟨-, violate⟩ | ⟨inserted, compensate⟩⟩
    · exact .refl
    · exact .single note (.inl rfl)
    · exact .single violate (.inr (.inl rfl))
    · exact .single compensate (.inr (.inr ⟨inserted, rfl⟩))
  | repairDebtCache id =>
    obtain ⟨delta, done⟩ := map_snd_toOption performed
    rw [(repairDebtCache_eq sound.cached done).2]
    exact .refl

theorem operation_moves (valid : state.Valid) (operation : Operation) :
    Moves operation.allows state.db (state.step operation).db := by
  unfold StoreState.step
  split
  next db performed => exact perform_moves valid.sound performed
  next => exact .refl

theorem StoreState.Valid.step (valid : state.Valid) (operation : Operation) :
    (state.step operation).Valid := by
  unfold StoreState.step
  cases performed : state.perform operation with
  | none => exact valid
  | some db =>
    have moves := perform_moves valid.sound performed
    have grown := moves.extends valid.formed
    refine ⟨moves.wellFormed valid.formed, ?_, moves.cached valid.formed valid.cached, ?_⟩
    · intro past member
      rcases List.mem_append.mp member with before | last
      · exact ⟨(valid.earlier past before).1, (valid.earlier past before).2.trans grown⟩
      · rw [List.mem_singleton.mp last]
        exact ⟨valid.formed, grown⟩
    · intro past member
      rcases List.mem_append.mp member with before | last
      · exact valid.wereCached past before
      · rw [List.mem_singleton.mp last]
        exact valid.cached

theorem store_valid {guard : StoreState → Operation → Prop}
    (reached : store.Reachable guard state) :
    state.Valid := by
  refine reached.induction ?_ ?_
  · rintro _ ⟨manifests, -, rfl⟩
    exact StoreState.initial_valid manifests
  · rintro before operation after - valid - stepped
    cases stepped
    exact valid.step operation

/-! ## The debt caches -/

theorem selectWrongCaches_eq_nil (cached : db.Cached) (limit : Nat) :
    Store.selectWrongCaches db limit = [] := by
  have none : (db.windows.select fun id window =>
      decide (window.currentUnresolvedObjectDebtTotal ≠ db.activeDebt id)) = [] := by
    refine List.eq_nil_iff_forall_not_mem.mpr ?_
    rintro ⟨id, window⟩ member
    have picked := Table.mem_select.mp member
    exact absurd (cached id window picked.1) (of_decide_eq_true picked.2)
  unfold Store.selectWrongCaches
  rw [none]
  simp [firstBy]

theorem repairDebtCache_ok {id : UUID} {window : BudgetWindow} (cached : db.Cached)
    (found : db.windows.get id = some window) : Store.repairDebtCache db id = .ok (0, db) := by
  have total := cached id window found
  have checked := Table.check_of_get found
  simp only [budgetWindow, Bool.and_eq_true, decide_eq_true_eq] at checked
  obtain ⟨⟨⟨⟨-, fits⟩, -⟩, -⟩, nonneg⟩ := checked
  have difference : int64 (db.activeDebt id - window.currentUnresolvedObjectDebtTotal) = 0 := by
    rw [total, sub_self]
    rfl
  unfold Store.repairDebtCache debtCacheDelta
  simp only [bind_eq_ok, demand_eq_ok, ensure_eq_ok, exists_const, pure_eq_ok]
  refine ⟨window, found, total ▸ fits, 0, ⟨?_, difference⟩, if_pos rfl⟩
  rw [← total]
  omega

/-- Every window's cached debt is the sum of its active debts.  A reconciliation of
the caches, whenever its query ran, checks and repairs nothing; the repair of a
single window finds it exact; and a window holds at least each of its active debts. -/
theorem debtCache_never_drifts {state : StoreState}
    (reached : store.Reachable System.always state) :
    (∀ id window, state.db.windows.get id = some window →
      window.currentUnresolvedObjectDebtTotal = state.db.activeDebt id ∧
      Store.repairDebtCache state.db id = .ok (0, state.db)) ∧
    (∀ seen ∈ state.db :: state.past, ∀ limit : Int, 1 ≤ limit →
      Store.reconcileDebtCaches seen state.db limit = (⟨0, 0, 0⟩, none, state.db)) ∧
    ∀ id debt, state.db.debts.get id = some debt → debt.debtState = .active →
      ∃ window, state.db.windows.get debt.budgetWindowId = some window ∧
        debt.debtAmount ≤ window.currentUnresolvedObjectDebtTotal := by
  have valid := store_valid reached
  refine ⟨?_, ?_, ?_⟩
  · intro id window found
    exact ⟨valid.cached id window found, repairDebtCache_ok valid.cached found⟩
  · intro seen member limit positive
    have exact : seen.Cached := by
      rcases List.mem_cons.mp member with rfl | earlier
      · exact valid.cached
      · exact valid.wereCached seen earlier
    unfold Store.reconcileDebtCaches
    rw [if_neg (by omega), selectWrongCaches_eq_nil exact]
    rfl
  · intro id debt found active
    rcases valid.formed.governed id with ⟨rows, held, sound⟩ | absent
    · have owner := (sound.debt debt (held.debt.symm.trans found)).1
      refine ⟨rows.window, owner ▸ held.window, ?_⟩
      rw [valid.cached _ _ held.window, ← owner]
      exact Database.le_activeDebt found active
    · cases absent.debt.symm.trans found

theorem sampleStore_initial : store.initial (.initial [sampleChecksum]) := by
  refine ⟨[sampleChecksum], ?_, rfl⟩
  have checked : hexDigest sampleChecksum = true := by decide +kernel
  simpa using checked

/-- A search for at most five objects whose dispatch is lost. -/
def lostSearch : List Operation :=
  [.reserve 0 ⟨10, 11, 0⟩ ((searchCall "first" "one" 5).admission 1),
    .dispatch 0 1 "request" second 0,
    .markStaleAndClaim 99 99 0 (10 * second) (-1) "worker" second 5 []]

theorem debtCache_never_drifts_lostSearch :
    ∃ state window, store.replay (fun _ _ => true) (.initial [sampleChecksum]) lostSearch =
        some state ∧
      state.db.windows.get 10 = some window ∧ state.db.activeDebt 10 = 5 ∧
      window.currentUnresolvedObjectDebtTotal = state.db.activeDebt 10 ∧
      Store.reconcileDebtCaches state.db state.db 1 = (⟨0, 0, 0⟩, none, state.db) := by
  obtain ⟨state, replayed, reached, checked⟩ := System.exists_reachable
    (fun _ _ _ _ => trivial) sampleStore_initial
    (show (store.replay (fun _ _ => true) _ lostSearch).any (fun state =>
      (state.db.windows.get 10).any fun _ : BudgetWindow =>
        decide (state.db.activeDebt 10 = 5)) = true by decide +kernel)
  obtain ⟨window, found, owed⟩ := (Option.any_eq_true _ _).mp checked
  obtain ⟨exact, idle, -⟩ := debtCache_never_drifts reached
  exact ⟨state, window, replayed, found, of_decide_eq_true owed, (exact 10 window found).1,
    idle state.db List.mem_cons_self 1 (by decide)⟩

end OufMcp.Ledger
