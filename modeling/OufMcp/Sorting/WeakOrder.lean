import OufMcp.Sorting.Slice

/-!
# Strict weak orders

The laws a sort needs of its comparison.  A comparison of keys has them, and its entries
are incomparable exactly when their keys are equal.  So entries with distinct keys have
one arrangement: every sort ends in it, and the check of adjacent entries accepts no other.
-/

namespace OufMcp.Sorting

variable {α κ : Type} {less : α → α → Bool}

def Incomparable (less : α → α → Bool) (a b : α) : Prop := less a b = false ∧ less b a = false

structure WeakOrder (less : α → α → Bool) : Prop where
  irrefl : ∀ a, less a a = false
  trans : ∀ a b c, less a b = true → less b c = true → less a c = true
  incomparable_trans : ∀ a b c, Incomparable less a b → Incomparable less b c →
    Incomparable less a c

/-- `sort.SliceIsSorted`: no entry comes before the one in front of it. -/
def SliceIsSorted (less : α → α → Bool) (entries : List α) : Prop :=
  entries.IsChain fun earlier later => less later earlier = false

instance (less : α → α → Bool) : DecidablePred (SliceIsSorted less) :=
  fun entries => inferInstanceAs (Decidable (entries.IsChain _))

/-- The one sequence of some entries that the comparison leaves. -/
structure Arrangement (less : α → α → Bool) (entries sequence : List α) : Prop where
  perm : sequence.Perm entries
  sort_eq : ∀ (slice : Slice less) (given : List α), given.Perm entries →
    slice.sort given = sequence
  sorted_iff : ∀ given : List α, given.Perm entries →
    (SliceIsSorted less given ↔ given = sequence)

section Keys

variable [LinearOrder κ] {key : α → κ}

theorem incomparable_iff (compares : ∀ a b, less a b = true ↔ key a < key b) {a b : α} :
    Incomparable less a b ↔ key a = key b := by
  unfold Incomparable
  rw [← Bool.not_eq_true, ← Bool.not_eq_true, compares, compares, not_lt, not_lt]
  constructor
  · rintro ⟨above, below⟩
    exact le_antisymm below above
  · intro same
    exact ⟨same.ge, same.le⟩

theorem weakOrder_of_key (compares : ∀ a b, less a b = true ↔ key a < key b) :
    WeakOrder less where
  irrefl a := by
    rw [← Bool.not_eq_true, compares]
    exact lt_irrefl _
  trans a b c := by
    rw [compares, compares, compares]
    exact lt_trans
  incomparable_trans a b c := by
    rw [incomparable_iff compares, incomparable_iff compares, incomparable_iff compares]
    exact Eq.trans

theorem less_eq_false (compares : ∀ a b, less a b = true ↔ key a < key b) {a b : α} :
    less b a = false ↔ key a ≤ key b := by
  rw [← Bool.not_eq_true, compares, not_lt]

theorem sliceIsSorted_iff (compares : ∀ a b, less a b = true ↔ key a < key b)
    {entries : List α} :
    SliceIsSorted less entries ↔
      entries.Pairwise fun earlier later => less later earlier = false := by
  have : IsTrans α fun earlier later => less later earlier = false := by
    refine ⟨fun a b c first second => ?_⟩
    rw [less_eq_false compares] at first second ⊢
    exact first.trans second
  exact List.isChain_iff_pairwise

def Slice.byKey (key : α → κ) (compares : ∀ a b, less a b = true ↔ key a < key b) :
    Slice less where
  sort entries := entries.insertionSort fun a b => key a ≤ key b
  perm entries := List.perm_insertionSort _ entries
  ordered entries := by
    have total : Std.Total fun a b : α => key a ≤ key b := ⟨fun a b => le_total _ _⟩
    have trans : IsTrans α fun a b => key a ≤ key b := ⟨fun _ _ _ => le_trans⟩
    refine (List.pairwise_insertionSort _ entries).imp ?_
    intro a b below
    exact (less_eq_false compares).mpr below

variable {entries : List α}

theorem exists_arrangement (compares : ∀ a b, less a b = true ↔ key a < key b)
    (distinct : (entries.map key).Nodup) : ∃ sequence, Arrangement less entries sequence := by
  let standard : Slice less := .byKey key compares
  have tell : ∀ given : List α, given.Perm entries →
      ∀ a ∈ given, ∀ b ∈ given, key a = key b → a = b := by
    intro given perm a left b right same
    exact List.inj_on_of_nodup_map distinct (perm.mem_iff.mp left) (perm.mem_iff.mp right) same
  refine ⟨standard.sort entries, standard.perm entries, ?_, ?_⟩
  · intro slice given perm
    exact slice.sort_eq compares standard (tell given perm) perm
  · intro given perm
    rw [sliceIsSorted_iff compares]
    constructor
    · intro ordered
      -- Leaving a sorted list as it is would be a sort of it too.
      refine (perm.trans (standard.perm entries).symm).eq_of_pairwise ?_ ordered
        (standard.ordered entries)
      intro a b left right before after
      rw [less_eq_false compares] at before after
      exact tell given perm a left b
        (perm.mem_iff.mpr ((standard.perm entries).mem_iff.mp right)) (le_antisymm before after)
    · rintro rfl
      exact standard.ordered entries

theorem Arrangement.head?_eq {sequence : List α} (arranged : Arrangement less entries sequence)
    (compares : ∀ a b, less a b = true ↔ key a < key b) (distinct : (entries.map key).Nodup)
    {first : α} (among : first ∈ entries) (least : ∀ other ∈ entries, less other first = false) :
    sequence.head? = some first := by
  cases shape : sequence with
  | nil =>
    have none := arranged.perm.mem_iff.mpr among
    rw [shape] at none
    cases none
  | cons head rest =>
    have ordered := (sliceIsSorted_iff compares).mp
      ((arranged.sorted_iff sequence arranged.perm).mpr rfl)
    have here : head ∈ entries := arranged.perm.mem_iff.mp (by rw [shape]; exact List.mem_cons_self)
    have there := arranged.perm.mem_iff.mpr among
    rw [shape] at ordered there
    rcases List.mem_cons.mp there with rfl | later
    · rfl
    · have before := List.rel_of_pairwise_cons ordered later
      have after := least head here
      rw [less_eq_false compares] at before after
      exact congrArg some
        (List.inj_on_of_nodup_map distinct here among (le_antisymm before after))

end Keys

end OufMcp.Sorting
