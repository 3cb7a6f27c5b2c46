import Mathlib.Data.Fintype.Basic
import Mathlib.Data.List.Destutter
import Mathlib.Data.List.Lex
import Mathlib.Data.List.Sort
import OufMcp.Json.Text

/-!
# Go strings

Any sequence of bytes is a string in Go.  The JSON encoder reads it rune by rune; a
byte that starts no rune is read as an error and written like any other such byte.  So
a string can be told from what is read of it as long as it is well-formed.  Lists of
strings are sorted byte by byte and compacted, which leaves their set of elements.
-/

namespace OufMcp.Json

abbrev GoString := List (Fin 256)

def goString (s : String) : GoString := s.toByteArray.data.toList.map UInt8.toFin

def byteArray (s : GoString) : ByteArray := (s.map UInt8.ofFin).toByteArray

/-- The rune at the beginning of a string. -/
def decodeRune (s : GoString) : Option Char := (byteArray s).utf8DecodeChar? 0

def runesUpTo : Nat → GoString → Text
  | 0, _ => []
  | _ + 1, [] => []
  | fuel + 1, byte :: rest =>
    match decodeRune (byte :: rest) with
    | some c => some c :: runesUpTo fuel ((byte :: rest).drop c.utf8Size)
    | none => none :: runesUpTo fuel rest

def runes (s : GoString) : Text := runesUpTo s.length s

def WellFormed (s : GoString) : Prop := none ∉ runes s

theorem byteArray_toList (s : GoString) : (byteArray s).data.toList = s.map UInt8.ofFin := by
  simp [byteArray]

theorem decodeRune_inj {s t : GoString} {c : Char} (first : decodeRune s = some c)
    (second : decodeRune t = some c) (rest : s.drop c.utf8Size = t.drop c.utf8Size) : s = t := by
  have same : (byteArray s).extract 0 c.utf8Size = (byteArray t).extract 0 c.utf8Size := by
    rw [← String.toByteArray_utf8EncodeChar_of_utf8DecodeChar?_eq_some first,
      ← String.toByteArray_utf8EncodeChar_of_utf8DecodeChar?_eq_some second]
  have lists := congrArg (fun bytes : ByteArray => bytes.data.toList) same
  simp only [ByteArray.data_extract, Array.toList_extract, List.extract_eq_take_drop,
    byteArray_toList, List.drop_zero, Nat.sub_zero, ← List.map_take] at lists
  have injective : Function.Injective UInt8.ofFin := by
    intro a b equal
    exact congrArg UInt8.toFin equal
  have taken := List.map_injective_iff.mpr injective lists
  rw [← List.take_append_drop c.utf8Size s, ← List.take_append_drop c.utf8Size t, taken, rest]

theorem runesUpTo_eq_nil {fuel : Nat} {s : GoString} (enough : s.length ≤ fuel)
    (nothing : runesUpTo fuel s = []) : s = [] := by
  match fuel, s with
  | _, [] => rfl
  | 0, byte :: rest => cases enough
  | fuel + 1, byte :: rest =>
    unfold runesUpTo at nothing
    split at nothing <;> cases nothing

theorem runesUpTo_inj {m n : Nat} {s t : GoString} (enoughS : s.length ≤ m)
    (enoughT : t.length ≤ n) (wellFormed : none ∉ runesUpTo m s)
    (same : runesUpTo m s = runesUpTo n t) : s = t := by
  induction m generalizing n s t with
  | zero =>
    obtain rfl := List.length_eq_zero_iff.mp (Nat.le_zero.mp enoughS)
    exact (runesUpTo_eq_nil enoughT same.symm).symm
  | succ m ih =>
    cases s with
    | nil => exact (runesUpTo_eq_nil enoughT same.symm).symm
    | cons byte rest =>
      cases first : decodeRune (byte :: rest) with
      | none =>
        refine absurd ?_ wellFormed
        simp [runesUpTo, first]
      | some c =>
        have positive := c.utf8Size_pos
        cases n with
        | zero =>
          simp [runesUpTo, first] at same
        | succ n =>
          cases t with
          | nil => simp [runesUpTo, first] at same
          | cons other tail =>
            cases second : decodeRune (other :: tail) with
            | none => simp [runesUpTo, first, second] at same
            | some d =>
              simp only [runesUpTo, first, second, List.cons.injEq,
                Option.some.injEq] at same wellFormed
              obtain ⟨rfl, later⟩ := same
              rw [List.mem_cons, not_or] at wellFormed
              refine decodeRune_inj first second (ih ?_ ?_ wellFormed.2 later)
              · rw [List.length_drop]
                simp only [List.length_cons] at enoughS ⊢
                omega
              · rw [List.length_drop]
                simp only [List.length_cons] at enoughT ⊢
                omega

theorem runes_inj {s t : GoString} (wellFormed : WellFormed s) (same : runes s = runes t) :
    s = t :=
  runesUpTo_inj le_rfl le_rfl wellFormed same

theorem map_runes_inj {first second : List GoString} (wellFormed : ∀ s ∈ first, WellFormed s)
    (same : first.map runes = second.map runes) : first = second := by
  induction first generalizing second with
  | nil => exact (List.map_eq_nil_iff.mp same.symm).symm
  | cons s rest ih =>
    cases second with
    | nil => cases same
    | cons t others =>
      obtain ⟨head, tail⟩ := List.cons.inj same
      rw [List.forall_mem_cons] at wellFormed
      rw [runes_inj wellFormed.1 head, ih wellFormed.2 tail]

/-! ## Lists of strings as sets -/

section Compact

variable {α : Type} [LinearOrder α]

/-- `sort.Strings` and `slices.Compact` -/
def sortedSet (elements : List α) : List α :=
  (elements.insertionSort (· ≤ ·)).destutter (· ≠ ·)

theorem mem_destutter {elements : List α} {a : α} :
    a ∈ elements.destutter (· ≠ ·) ↔ a ∈ elements := by
  refine ⟨fun kept => (List.destutter_sublist _ _).subset kept, ?_⟩
  have through : ∀ (rest : List α) (b : α), a ∈ b :: rest → a ∈ rest.destutter' (· ≠ ·) b := by
    intro rest
    induction rest with
    | nil =>
      intro b member
      exact member
    | cons next rest ih =>
      intro b member
      by_cases equal : b = next
      · rw [List.destutter'_cons_neg _ (not_not.mpr equal)]
        refine ih b ?_
        rw [equal] at member ⊢
        simpa using member
      · rw [List.destutter'_cons_pos _ equal]
        rcases List.mem_cons.mp member with rfl | later
        · exact List.mem_cons_self
        · exact List.mem_cons_of_mem _ (ih next later)
  cases elements with
  | nil => exact id
  | cons first rest => exact through rest first

theorem mem_sortedSet {elements : List α} {a : α} : a ∈ sortedSet elements ↔ a ∈ elements := by
  rw [sortedSet, mem_destutter, List.mem_insertionSort]

theorem sortedSet_sortedLT (elements : List α) : (sortedSet elements).SortedLT := by
  have ordered : (sortedSet elements).Pairwise (· ≤ ·) :=
    (List.pairwise_insertionSort (· ≤ ·) elements).sublist (List.destutter_sublist _ _)
  have apart : (sortedSet elements).IsChain (· ≠ ·) := List.isChain_destutter _ _
  rw [List.sortedLT_iff_isChain]
  have strict : ∀ l : List α, l.IsChain (· ≤ ·) → l.IsChain (· ≠ ·) → l.IsChain (· < ·) := by
    intro l
    induction l with
    | nil => exact fun _ _ => .nil
    | cons a rest ih =>
      intro below different
      cases rest with
      | nil => exact .singleton a
      | cons b rest =>
        rw [List.isChain_cons_cons] at below different ⊢
        exact ⟨lt_of_le_of_ne below.1 different.1, ih below.2 different.2⟩
  exact strict _ ordered.isChain apart

theorem sortedSet_eq_iff {first second : List α} :
    sortedSet first = sortedSet second ↔ ∀ a, a ∈ first ↔ a ∈ second := by
  constructor
  · intro same a
    rw [← mem_sortedSet, same, mem_sortedSet]
  · intro same
    refine (sortedSet_sortedLT first).eq_of_mem_iff (sortedSet_sortedLT second) ?_
    intro a
    rw [mem_sortedSet, mem_sortedSet, same]

end Compact

end OufMcp.Json
