import Mathlib.Algebra.Order.Group.Int
import OufMcp.Ledger.Steps

/-!
# Debts and their cached total

A window caches the total of its active debts.  A lost dispatch opens its debt and
adds it to the total, a compensation resolves it and takes it off, and no other
change touches either, so the total is the sum of the active debts.
-/

namespace OufMcp.Ledger

open Relational Transition

/-! ## What attempts owe -/

def Rows.owed (rows : Rows) : Int :=
  match rows.debt with
  | some debt => if debt.debtState = .active then debt.debtAmount else 0
  | none => 0

theorem Rows.Sound.owed {rows : Rows} (sound : rows.Sound) (window : UUID) :
    (rows.debt.elim 0 fun debt =>
      if debt.budgetWindowId = window ∧ debt.debtState = .active then debt.debtAmount else 0) =
      if rows.context.budgetWindowId = window then rows.owed else 0 := by
  unfold Rows.owed
  cases shape : rows.debt with
  | none => simp
  | some debt =>
    rw [Option.elim_some, (sound.debt debt shape).1]
    by_cases same : rows.context.budgetWindowId = window <;> simp [same]

theorem Touches.activeDebt {id : UUID} {before after : Database} {kind : Kind} {old new : Rows}
    (touch : Touches id before after old new) (change : Change kind old new)
    (sound : old.Sound) (window : UUID) :
    after.activeDebt window +
        (if old.context.budgetWindowId = window then old.owed else 0) =
      before.activeDebt window +
        if old.context.budgetWindowId = window then new.owed else 0 := by
  have oldShare := sound.owed window
  have newShare := (change.sound sound).owed window
  rw [touch.sameContext] at newShare
  rw [← oldShare, ← newShare]
  unfold Database.activeDebt
  rcases touch.debts with ⟨same, kept⟩ | ⟨debt, written, put⟩
  · rw [kept, same]
  · have total := put.sum fun _ debt =>
      if debt.budgetWindowId = window ∧ debt.debtState = .active then debt.debtAmount else 0
    rw [touch.held.debt] at total
    rw [written, Option.elim_some]
    exact total

theorem Database.WellFormed.activeDebt_fresh {db : Database} (formed : db.WellFormed)
    {window : UUID} (fresh : db.windows.get window = none) : db.activeDebt window = 0 := by
  refine Table.sum_eq_zero fun id debt found => if_neg ?_
  rintro ⟨rfl, -⟩
  rcases formed.governed id with ⟨rows, held, sound⟩ | absent
  · have owner := (sound.debt debt (held.debt.symm.trans found)).1
    rw [owner] at fresh
    cases fresh.symm.trans held.window
  · cases absent.debt.symm.trans found

theorem Database.debt_nonneg {db : Database} {id : UUID} {debt : ObjectDebt} (window : UUID)
    (found : db.debts.get id = some debt) :
    0 ≤ if debt.budgetWindowId = window ∧ debt.debtState = .active then debt.debtAmount else 0 := by
  have checked := Table.check_of_get found
  simp only [budgetObjectDebt, Bool.and_eq_true, decide_eq_true_eq] at checked
  split
  · exact checked.1.1.le
  · exact le_refl 0

theorem Database.activeDebt_nonneg (db : Database) (window : UUID) : 0 ≤ db.activeDebt window :=
  Table.sum_nonneg fun _ _ found => Database.debt_nonneg window found

theorem Database.le_activeDebt {db : Database} {id : UUID} {debt : ObjectDebt}
    (found : db.debts.get id = some debt) (active : debt.debtState = .active) :
    debt.debtAmount ≤ db.activeDebt debt.budgetWindowId := by
  have share := Table.le_sum
    (fun _ _ stored => Database.debt_nonneg debt.budgetWindowId stored) found
  rwa [if_pos ⟨rfl, active⟩] at share

/-! ## The cached total -/

/-- Every window caches the sum of its active debts. -/
def Database.Cached (db : Database) : Prop :=
  ∀ id window, db.windows.get id = some window →
    window.currentUnresolvedObjectDebtTotal = db.activeDebt id

theorem Database.migrated_cached (manifests : List String) :
    (Database.migrated manifests).Cached := by
  intro id window found
  cases found

theorem Change.cached {kind : Kind} {old new : Rows} (change : Change kind old new)
    (objects : 0 ≤ old.reservation.reservedDistinctObjectsMax) :
    new.window.currentUnresolvedObjectDebtTotal + old.owed =
      old.window.currentUnresolvedObjectDebtTotal + new.owed := by
  cases change with
  | lose now debt running reserved bound opened =>
    rcases opened with ⟨positive, none, rfl⟩ | ⟨zero, rfl⟩
    · simp [BudgetWindow.moveToDebt, Rows.owed, none, ObjectDebt.opened]
    · have exact : old.reservation.reservedDistinctObjectsMax = 0 := le_antisymm zero objects
      simp [BudgetWindow.moveToDebt, Rows.owed, exact]
  | compensateUnresolved stamp ref inserted terminal dispatchState code resultRef debt unresolved
      owed active =>
    simp [BudgetWindow.compensate, Rows.owed, owed, active, ObjectDebt.resolve]
  | compensateUnknown stamp ref inserted terminal code resultRef debt unknown uncertain lost owed
      active =>
    simp [BudgetWindow.compensate, BudgetWindow.release, Rows.owed, owed, active,
      ObjectDebt.resolve]
  | _ => rfl

theorem Touches.cached {id : UUID} {before after : Database} {kind : Kind} {old new : Rows}
    (touch : Touches id before after old new) (change : Change kind old new)
    (formed : before.WellFormed) (cached : before.Cached) : after.Cached := by
  intro key window found
  have sound := formed.sound touch.held
  have debt := touch.activeDebt change sound key
  by_cases same : key = old.context.budgetWindowId
  · subst same
    obtain rfl := Option.some.inj (touch.windows.get_self.symm.trans found)
    have total := cached _ _ touch.held.window
    have moved := change.cached (BudgetReservation.objects_nonneg touch.held.reservation)
    simp only [if_true] at debt
    omega
  · rw [touch.windows.get_of_ne same] at found
    simp only [if_neg (Ne.symm same), add_zero] at debt
    rw [debt]
    exact cached key window found

theorem Move.cached {kind : Kind} {before after : Database} (move : Move kind before after)
    (formed : before.WellFormed) (cached : before.Cached) : after.Cached := by
  cases move with
  | openWindow id window windows fresh unused put =>
    intro key stored found
    by_cases same : key = id
    · subst same
      obtain rfl := Option.some.inj (put.get_self.symm.trans found)
      rw [unused.currentUnresolvedObjectDebtTotal]
      exact (formed.activeDebt_fresh fresh).symm
    · exact cached key stored ((put.get_of_ne same).symm.trans found)
  | admission admits =>
    rename_i id req rows
    intro key stored found
    have debt : after.activeDebt key = before.activeDebt key := by
      unfold Database.activeDebt
      rw [admits.debts]
    rw [debt]
    obtain ⟨window, limit, reserved, was, -⟩ := admits.window
    by_cases same : key = rows.context.budgetWindowId
    · subst same
      obtain rfl := Option.some.inj (admits.windows.get_self.symm.trans found)
      rw [reserved]
      exact cached _ window was
    · exact cached key stored ((admits.windows.get_of_ne same).symm.trans found)
  | rewrite rewrites => exact rewrites.touch.cached rewrites.change formed cached
  | violate stamp found verified touch change put objects adjustments =>
    exact touch.cached change formed cached
  | compensate stamp found verified touch change put counted unadjusted adjusts adjustments =>
    exact touch.cached change formed cached
  | append | note | openGroup | openGuard | countGuard | ingest => exact cached

theorem Moves.cached {allowed : Kind → Prop} {before after : Database}
    (moves : Moves allowed before after) (formed : before.WellFormed) (cached : before.Cached) :
    after.Cached :=
  moves.invariant formed cached fun _ _ _ _ formed move holds => move.cached formed holds

end OufMcp.Ledger
