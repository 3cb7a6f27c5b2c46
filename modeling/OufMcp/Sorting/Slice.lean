import Mathlib.Data.List.Sort

/-!
# Sorting without stability

A sort is only known to permute its input into an order that its comparison allows.
Where the comparison is that of keys, the keys of the result are determined, and so
is the result itself where no two entries share a key.
-/

namespace OufMcp.Sorting

/-- A sort for a comparison; entries that do not compare may end in any order. -/
structure Slice {α : Type} (less : α → α → Bool) where
  sort : List α → List α
  perm : ∀ entries, (sort entries).Perm entries
  ordered : ∀ entries, (sort entries).Pairwise fun a b => less b a = false

namespace Slice

variable {α κ : Type} {less : α → α → Bool} [LinearOrder κ] {key : α → κ} {xs ys : List α}

theorem sort_eq (compares : ∀ a b, less a b = true ↔ key a < key b) (first second : Slice less)
    (distinct : ∀ a ∈ xs, ∀ b ∈ xs, key a = key b → a = b) (perm : xs.Perm ys) :
    first.sort xs = second.sort ys := by
  have same : (first.sort xs).Perm (second.sort ys) :=
    (first.perm xs).trans (perm.trans (second.perm ys).symm)
  refine same.eq_of_pairwise ?_ (first.ordered xs) (second.ordered ys)
  intro a b left right before after
  refine distinct a ((first.perm xs).mem_iff.mp left) b
    (perm.mem_iff.mpr ((second.perm ys).mem_iff.mp right)) ?_
  rw [← Bool.not_eq_true, compares, not_lt] at before after
  exact le_antisymm before after

end Slice

variable {α : Type} [LinearOrder α]

theorem insertionSort_eq_iff {a b : List α} :
    a.insertionSort (· ≤ ·) = b.insertionSort (· ≤ ·) ↔ a.Perm b := by
  constructor
  · intro same
    exact (List.perm_insertionSort _ a).symm.trans (same ▸ List.perm_insertionSort _ b)
  · intro perm
    exact ((List.perm_insertionSort _ a).trans (perm.trans
      (List.perm_insertionSort _ b).symm)).eq_of_pairwise'
        (List.pairwise_insertionSort _ a) (List.pairwise_insertionSort _ b)

end OufMcp.Sorting
