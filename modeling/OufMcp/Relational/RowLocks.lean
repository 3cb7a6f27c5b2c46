import Mathlib.Logic.Function.Basic
import Mathlib.Data.Option.Basic

/-!
# Rows under locks

The rows of one relation as concurrent transactions see them under read committed
isolation.  A transaction that locks a row keeps its own version of it until it
ends; every other transaction sees the committed row meanwhile and cannot lock it.
Committing makes a transaction's versions the committed rows.
-/

namespace OufMcp.Relational

/-- Committed rows, and for each locked row the transaction that holds the lock with its
version of the row. -/
structure LockedRows (κ ρ τ : Type) where
  committed : κ → Option ρ
  held : κ → Option (τ × ρ)

namespace LockedRows

variable {κ ρ τ : Type}

def settled (rows : κ → Option ρ) : LockedRows κ ρ τ := ⟨rows, fun _ => none⟩

def Holds (rows : LockedRows κ ρ τ) (tx : τ) (key : κ) (row : ρ) : Prop :=
  rows.held key = some (tx, row)

/-! ## What a transaction sees -/

section Transactions

variable [DecidableEq τ] {rows : LockedRows κ ρ τ} {tx other : τ} {key : κ} {row : ρ}

/-- A row as a transaction sees it: its own version, or the committed row. -/
def visible (rows : LockedRows κ ρ τ) (tx : τ) (key : κ) : Option ρ :=
  match rows.held key with
  | some (holder, row) => if holder = tx then some row else rows.committed key
  | none => rows.committed key

def free (rows : LockedRows κ ρ τ) (tx : τ) (key : κ) : Bool :=
  (rows.held key).all fun lock => decide (lock.1 = tx)

def release (rows : LockedRows κ ρ τ) (tx : τ) (key : κ) : Option (τ × ρ) :=
  (rows.held key).filter fun lock => !decide (lock.1 = tx)

def commit (rows : LockedRows κ ρ τ) (tx : τ) : LockedRows κ ρ τ :=
  ⟨rows.visible tx, rows.release tx⟩

def rollback (rows : LockedRows κ ρ τ) (tx : τ) : LockedRows κ ρ τ :=
  ⟨rows.committed, rows.release tx⟩

theorem visible_of_holds (holds : rows.Holds tx key row) : rows.visible tx key = some row := by
  unfold visible
  rw [holds]
  exact if_pos rfl

theorem visible_cases (rows : LockedRows κ ρ τ) (tx : τ) (key : κ) :
    (∃ row, rows.Holds tx key row) ∨ rows.visible tx key = rows.committed key := by
  unfold visible Holds
  cases found : rows.held key with
  | none => exact .inr rfl
  | some lock =>
    by_cases own : lock.1 = tx
    · exact .inl ⟨lock.2, by rw [← own]⟩
    · exact .inr (if_neg own)

theorem not_free (holds : rows.Holds other key row) (differ : other ≠ tx) :
    rows.free tx key = false := by
  unfold free
  rw [holds]
  simpa using differ

theorem Holds.released (holds : rows.Holds other key row) (differ : other ≠ tx) :
    rows.release tx key = some (other, row) := by
  unfold release
  rw [holds, Option.filter_some]
  simp [differ]

theorem of_release (left : rows.release tx key = some (other, row)) :
    rows.Holds other key row ∧ other ≠ tx := by
  unfold release at left
  obtain ⟨found, kept⟩ := Option.filter_eq_some_iff.mp left
  exact ⟨found, by simpa using kept⟩

theorem Holds.visible_other (holds : rows.Holds other key row) (differ : other ≠ tx) :
    rows.visible tx key = rows.committed key := by
  unfold visible
  rw [holds]
  exact if_neg differ

end Transactions

/-! ## Locking -/

section Locking

variable [DecidableEq κ] {rows after : LockedRows κ ρ τ} {tx other : τ} {key another : κ} {row : ρ}

def keep (rows : LockedRows κ ρ τ) (tx : τ) (key : κ) (row : ρ) : LockedRows κ ρ τ :=
  { rows with held := Function.update rows.held key (some (tx, row)) }

theorem keep_holds : (rows.keep tx key row).Holds tx key row := Function.update_self ..

theorem keep_held_of_ne (differ : another ≠ key) :
    (rows.keep tx key row).held another = rows.held another :=
  Function.update_of_ne differ _ _

variable [DecidableEq τ]

/-- `select .. for update` of one row: nothing when there is no row, or when another
transaction holds the lock and the statement has to wait. -/
def lock? (rows : LockedRows κ ρ τ) (tx : τ) (key : κ) : Option (LockedRows κ ρ τ) :=
  if rows.free tx key = true then (rows.visible tx key).map (rows.keep tx key) else none

def lockAll? (rows : LockedRows κ ρ τ) (tx : τ) (keys : List κ) : Option (LockedRows κ ρ τ) :=
  keys.foldlM (fun rows key => rows.lock? tx key) rows

/-- A lock keeps what its transaction saw, on a row no other transaction holds. -/
theorem lock?_eq_some (done : rows.lock? tx key = some after) :
    rows.free tx key = true ∧ ∃ row, rows.visible tx key = some row ∧
      after = rows.keep tx key row := by
  unfold lock? at done
  split at done
  next free =>
    obtain ⟨row, found, rfl⟩ := Option.map_eq_some_iff.mp done
    exact ⟨free, row, found, rfl⟩
  next => cases done

theorem keep_holds_other (free : rows.free tx key = true) (differ : other ≠ tx) {version : ρ} :
    (rows.keep tx key row).Holds other another version ↔ rows.Holds other another version := by
  by_cases same : another = key
  · subst same
    constructor
    · intro holds
      exact absurd (Prod.mk.inj (Option.some.inj (holds.symm.trans keep_holds))).1 differ
    · intro holds
      rw [not_free holds differ] at free
      cases free
  · unfold Holds
    rw [keep_held_of_ne same]

theorem lockAll?_eq_some {keys : List κ} (done : rows.lockAll? tx keys = some after) :
    after.committed = rows.committed ∧
      (∀ other ≠ tx, ∀ key row, after.Holds other key row ↔ rows.Holds other key row) ∧
      (∀ key row, rows.Holds tx key row → after.Holds tx key row) ∧
      (∀ key ∈ keys, ∃ row, after.Holds tx key row) ∧
      ∀ key row, after.Holds tx key row → rows.visible tx key = some row := by
  induction keys generalizing rows with
  | nil =>
    obtain rfl := Option.some.inj done
    exact ⟨rfl, fun _ _ _ _ => Iff.rfl, fun _ _ holds => holds,
      fun _ member => absurd member List.not_mem_nil, fun _ _ => visible_of_holds⟩
  | cons key rest ih =>
    unfold lockAll? at done
    rw [List.foldlM_cons] at done
    obtain ⟨next, locked, done⟩ := Option.bind_eq_some_iff.mp done
    obtain ⟨free, row, seen, rfl⟩ := lock?_eq_some locked
    obtain ⟨committed, others, kept, all, own⟩ := ih done
    have still : ∀ another version, (rows.keep tx key row).visible tx another = some version →
        rows.visible tx another = some version := by
      intro another version found
      by_cases same : another = key
      · subst same
        rw [visible_of_holds keep_holds] at found
        exact seen.trans found
      · unfold visible at found ⊢
        rwa [keep_held_of_ne same] at found
    refine ⟨committed, ?_, ?_, ?_, ?_⟩
    · intro other differ another version
      rw [others other differ another version]
      exact keep_holds_other free differ
    · intro another version holds
      refine kept another version ?_
      by_cases same : another = key
      · subst same
        obtain rfl := Option.some.inj (seen.symm.trans (visible_of_holds holds))
        exact keep_holds
      · exact (keep_held_of_ne same).trans holds
    · intro another member
      rcases List.mem_cons.mp member with rfl | inner
      · exact ⟨row, kept _ _ keep_holds⟩
      · exact all another inner
    · intro another version holds
      exact still another version (own another version holds)

end Locking

end LockedRows

end OufMcp.Relational
