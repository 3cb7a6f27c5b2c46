import Mathlib.Data.List.Basic

/-!
# A register with compare and swap

A register that holds a pointer to an immutable value, or none.  Every value is
published under a pointer of its own, so the pointers are told apart by the
number of values published up to theirs.  A value that was compared with what a
pointer holds and is swapped in for that pointer follows the value before it, so
a transitive relation that every swap was tested for holds through the history.
-/

namespace OufMcp.Transition

/-- The values published so far, the newest first. -/
structure Register (α : Type) where
  history : List α

namespace Register

variable {α : Type}

def empty : Register α := ⟨[]⟩

def value (register : Register α) : Option α := register.history.head?

def pointer (register : Register α) : Nat := register.history.length

def compareAndSwap (register : Register α) (pointer : Nat) (value : α) : Option (Register α) :=
  if register.pointer = pointer then some ⟨value :: register.history⟩ else none

def Loaded (register : Register α) (pointer : Nat) (value : Option α) : Prop :=
  ∃ later earlier, register.history = later ++ earlier ∧ earlier.length = pointer ∧
    earlier.head? = value

theorem loaded_now (register : Register α) : register.Loaded register.pointer register.value :=
  ⟨[], register.history, rfl, rfl, rfl⟩

theorem Loaded.publish {register : Register α} {pointer : Nat} {value : Option α}
    (loaded : register.Loaded pointer value) (next : α) :
    (⟨next :: register.history⟩ : Register α).Loaded pointer value := by
  obtain ⟨later, earlier, split, length, head⟩ := loaded
  exact ⟨next :: later, earlier, by rw [split]; rfl, length, head⟩

theorem Loaded.value_eq {register : Register α} {pointer : Nat} {value : Option α}
    (loaded : register.Loaded pointer value) (held : register.pointer = pointer) :
    register.value = value := by
  obtain ⟨later, earlier, split, length, head⟩ := loaded
  have none : later = [] := by
    have total : later.length + earlier.length = pointer := by
      rw [← held, Register.pointer, split, List.length_append]
    exact List.length_eq_zero_iff.mp (by omega)
  rw [Register.value, split, none]
  exact head

theorem compareAndSwap_eq_some {register next : Register α} {pointer : Nat} {value : α}
    (swapped : register.compareAndSwap pointer value = some next) :
    register.pointer = pointer ∧ next = ⟨value :: register.history⟩ := by
  unfold compareAndSwap at swapped
  split at swapped
  next held => exact ⟨held, (Option.some.inj swapped).symm⟩
  next => cases swapped

theorem pairwise_cons {R : α → α → Prop} (trans : ∀ a b c, R a b → R b c → R a c)
    {register : Register α} (related : register.history.Pairwise R) {next : α}
    (follows : ∀ current, register.value = some current → R next current) :
    (next :: register.history).Pairwise R := by
  refine List.pairwise_cons.mpr ⟨fun old member => ?_, related⟩
  cases shape : register.history with
  | nil =>
    rw [shape] at member
    cases member
  | cons current rest =>
    have first : R next current := follows current (by rw [Register.value, shape]; rfl)
    rw [shape] at member related
    rcases List.mem_cons.mp member with rfl | older
    · exact first
    · exact trans _ _ _ first (List.rel_of_pairwise_cons related older)

end Register

end OufMcp.Transition
