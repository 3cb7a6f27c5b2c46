import Mathlib.Data.List.AList
import Mathlib.Algebra.BigOperators.Group.List.Basic
import Mathlib.Algebra.Order.BigOperators.Group.List
import Mathlib.Algebra.Order.Group.Nat

/-!
# Keyed relations with row constraints

A relation is a finite map from primary keys to rows.  Its schema names a check
that every row passes and a clash test for two rows that would break a
uniqueness constraint.  Both constraints are fields of the relation, so a write
that would break one has no result, and no later proof has to re-establish them.
Totals over the rows are stated in an arbitrary commutative monoid.
-/

namespace OufMcp.Relational

/-- Row checks and uniqueness constraints of one relation. -/
structure Schema (ρ : Type) where
  check : ρ → Bool
  clash : ρ → ρ → Bool

/-- A relation whose rows all pass the check and never clash. -/
structure Table (κ : Type) {ρ : Type} [DecidableEq κ] (schema : Schema ρ) where
  rows : AList (fun _ : κ => ρ)
  checked : ∀ key row, rows.lookup key = some row → schema.check row = true
  unique : ∀ first a second b, rows.lookup first = some a → rows.lookup second = some b →
    schema.clash a b = true → first = second

namespace Table

variable {κ ρ : Type} [DecidableEq κ] {schema : Schema ρ}

def empty : Table κ schema where
  rows := ∅
  checked := by simp
  unique := by simp

def get (table : Table κ schema) (key : κ) : Option ρ := table.rows.lookup key

def toList (table : Table κ schema) : List (κ × ρ) :=
  table.rows.entries.map fun entry => (entry.1, entry.2)

def select (table : Table κ schema) (wanted : κ → ρ → Bool) : List (κ × ρ) :=
  table.toList.filter fun entry => wanted entry.1 entry.2

def admits (table : Table κ schema) (key : κ) (row : ρ) : Bool :=
  schema.check row && table.toList.all fun entry =>
    decide (entry.1 = key) || !(schema.clash entry.2 row || schema.clash row entry.2)

theorem check_of_get {table : Table κ schema} {key : κ} {row : ρ}
    (found : table.get key = some row) : schema.check row = true :=
  table.checked key row found

theorem mem_toList {table : Table κ schema} {key : κ} {row : ρ} :
    (key, row) ∈ table.toList ↔ table.get key = some row := by
  unfold toList get
  rw [← Option.mem_def, AList.mem_lookup_iff, List.mem_map]
  constructor
  · rintro ⟨⟨k, r⟩, member, same⟩
    cases same
    exact member
  · intro member
    exact ⟨⟨key, row⟩, member, rfl⟩

theorem mem_select {table : Table κ schema} {wanted : κ → ρ → Bool} {key : κ} {row : ρ} :
    (key, row) ∈ table.select wanted ↔ table.get key = some row ∧ wanted key row = true := by
  unfold select
  rw [List.mem_filter, mem_toList]

theorem nodup_toList (table : Table κ schema) : (table.toList.map Prod.fst).Nodup := by
  have distinct := table.rows.nodupKeys
  rw [List.NodupKeys, List.keys] at distinct
  unfold toList
  rw [List.map_map]
  exact distinct

theorem nodup_select (table : Table κ schema) (wanted : κ → ρ → Bool) :
    ((table.select wanted).map Prod.fst).Nodup :=
  (List.Sublist.map _ List.filter_sublist).nodup table.nodup_toList

theorem admits_apart {table : Table κ schema} {key other : κ} {row old : ρ}
    (admitted : table.admits key row = true) (found : table.get other = some old)
    (differ : other ≠ key) :
    schema.clash old row = false ∧ schema.clash row old = false := by
  unfold admits at admitted
  rw [Bool.and_eq_true, List.all_eq_true] at admitted
  have apart := admitted.2 (other, old) (mem_toList.mpr found)
  simp only [differ, decide_false, Bool.false_or, Bool.not_eq_true',
    Bool.or_eq_false_iff] at apart
  exact apart

/-- Write one row, unless the schema refuses it. -/
def put? (table : Table κ schema) (key : κ) (row : ρ) : Option (Table κ schema) :=
  if admitted : table.admits key row = true then
    some {
      rows := table.rows.insert key row
      checked := by
        intro k r found
        by_cases same : k = key
        · subst same
          rw [AList.lookup_insert] at found
          cases found
          exact (Bool.and_eq_true _ _ ▸ admitted).1
        · rw [AList.lookup_insert_ne same] at found
          exact table.checked k r found
      unique := by
        intro first a second b foundA foundB clash
        by_cases same : first = key <;> by_cases also : second = key
        · rw [same, also]
        · subst same
          rw [AList.lookup_insert] at foundA
          rw [AList.lookup_insert_ne also] at foundB
          cases foundA
          have apart := (admits_apart admitted foundB also).2
          rw [apart] at clash
          cases clash
        · subst also
          rw [AList.lookup_insert_ne same] at foundA
          rw [AList.lookup_insert] at foundB
          cases foundB
          have apart := (admits_apart admitted foundA same).1
          rw [apart] at clash
          cases clash
        · rw [AList.lookup_insert_ne same] at foundA
          rw [AList.lookup_insert_ne also] at foundB
          exact table.unique first a second b foundA foundB clash }
  else none

def insert? (table : Table κ schema) (key : κ) (row : ρ) : Option (Table κ schema) :=
  if (table.get key).isSome then none else table.put? key row

/-- Writing `row` at `key` turns `before` into `after`. -/
def Puts (before : Table κ schema) (key : κ) (row : ρ) (after : Table κ schema) : Prop :=
  before.put? key row = some after

namespace Puts

variable {before after : Table κ schema} {key : κ} {row : ρ}

theorem admitted (write : Puts before key row after) : before.admits key row = true := by
  unfold Puts put? at write
  split at write
  · assumption
  · cases write

theorem rows_eq (write : Puts before key row after) :
    after.rows = before.rows.insert key row := by
  unfold Puts put? at write
  split at write
  · cases write
    rfl
  · cases write

theorem check (write : Puts before key row after) : schema.check row = true :=
  (Bool.and_eq_true _ _ ▸ write.admitted).1

theorem get (write : Puts before key row after) (other : κ) :
    after.get other = if other = key then some row else before.get other := by
  unfold Table.get
  rw [write.rows_eq]
  by_cases same : other = key
  · subst same
    rw [AList.lookup_insert, if_pos rfl]
  · rw [AList.lookup_insert_ne same, if_neg same]

theorem get_self (write : Puts before key row after) : after.get key = some row := by
  rw [write.get, if_pos rfl]

theorem get_of_ne (write : Puts before key row after) {other : κ} (differ : other ≠ key) :
    after.get other = before.get other := by
  rw [write.get, if_neg differ]

theorem overwrite {last : Table κ schema} {final : ρ} (first : Puts before key row after)
    (second : Puts after key final last) : Puts before key final last := by
  have admitted : before.admits key final = true := by
    unfold admits
    rw [Bool.and_eq_true, List.all_eq_true]
    refine ⟨second.check, ?_⟩
    rintro ⟨other, old⟩ member
    by_cases same : other = key
    · simp [same]
    · have found := (first.get_of_ne same).trans (mem_toList.mp member)
      have apart := admits_apart second.admitted found same
      simp [apart]
  have rows : before.rows.insert key final = last.rows := by
    rw [second.rows_eq, first.rows_eq, AList.insert_insert]
  unfold Puts put?
  rw [dif_pos admitted, Option.some.injEq]
  cases last
  simpa using rows

end Puts

theorem insert?_eq_some {table after : Table κ schema} {key : κ} {row : ρ} :
    table.insert? key row = some after ↔ table.get key = none ∧ Puts table key row after := by
  unfold insert? Puts
  cases found : table.get key with
  | none => simp
  | some old => simp

/-- A row that passes the check and clashes with none can be inserted under a free key. -/
theorem exists_insert? {table : Table κ schema} {key : κ} {row : ρ} (free : table.get key = none)
    (check : schema.check row = true)
    (apart : ∀ other old, table.get other = some old →
      schema.clash old row = false ∧ schema.clash row old = false) :
    ∃ after, table.insert? key row = some after := by
  have admitted : table.admits key row = true := by
    unfold admits
    rw [Bool.and_eq_true, List.all_eq_true]
    refine ⟨check, ?_⟩
    rintro ⟨other, old⟩ member
    obtain ⟨left, right⟩ := apart other old (mem_toList.mp member)
    simp [left, right]
  unfold insert? put?
  rw [free, dif_pos admitted]
  exact ⟨_, rfl⟩

/-- A row can be rewritten if the new one passes the check and clashes with nothing the old
one does not clash with. -/
theorem exists_puts {table : Table κ schema} {key : κ} {old new : ρ}
    (found : table.get key = some old) (check : schema.check new = true)
    (like : ∀ other, (schema.clash other new = true → schema.clash other old = true) ∧
      (schema.clash new other = true → schema.clash old other = true)) :
    ∃ after, Puts table key new after := by
  have admitted : table.admits key new = true := by
    unfold admits
    rw [Bool.and_eq_true, List.all_eq_true]
    refine ⟨check, ?_⟩
    rintro ⟨other, row⟩ member
    have there := mem_toList.mp member
    by_cases same : other = key
    · simp [same]
    · have left : schema.clash row new = false := Bool.eq_false_iff.mpr fun clash =>
        same (table.unique other row key old there found ((like row).1 clash))
      have right : schema.clash new row = false := Bool.eq_false_iff.mpr fun clash =>
        same (table.unique key old other row found there ((like row).2 clash)).symm
      simp [left, right]
  unfold Puts put?
  rw [dif_pos admitted]
  exact ⟨_, rfl⟩

/-! ## Deleting rows -/

theorem dlookup_filter (entries : List (Sigma fun _ : κ => ρ)) (distinct : entries.NodupKeys)
    (keep : κ → ρ → Bool) (key : κ) :
    (entries.filter fun entry => keep entry.1 entry.2).dlookup key =
      (entries.dlookup key).filter (keep key) := by
  induction entries with
  | nil => rfl
  | cons entry rest ih =>
    obtain ⟨k, r⟩ := entry
    have parts := List.nodupKeys_cons.mp distinct
    by_cases same : key = k
    · subst same
      have absent : rest.dlookup key = none := List.dlookup_eq_none.mpr parts.1
      by_cases kept : keep key r = true
      · simp [kept, Option.filter]
      · simp [kept, ih parts.2, absent, Option.filter]
    · have skip (tail : List (Sigma fun _ : κ => ρ)) :
          List.dlookup key (⟨k, r⟩ :: tail) = tail.dlookup key := by
        rw [List.dlookup_cons_ne _ _ same]
      by_cases kept : keep k r = true
      · simp [kept, skip, ih parts.2]
      · simp [kept, skip, ih parts.2]

def retain (table : Table κ schema) (keep : κ → ρ → Bool) : Table κ schema where
  rows := ⟨table.rows.entries.filter fun entry => keep entry.1 entry.2,
    table.rows.nodupKeys.sublist List.filter_sublist⟩
  checked := by
    intro key row found
    rw [AList.lookup, dlookup_filter _ table.rows.nodupKeys, Option.filter_eq_some_iff] at found
    exact table.checked key row found.1
  unique := by
    intro first a second b foundA foundB clash
    rw [AList.lookup, dlookup_filter _ table.rows.nodupKeys,
      Option.filter_eq_some_iff] at foundA foundB
    exact table.unique first a second b foundA.1 foundB.1 clash

theorem get_retain (table : Table κ schema) (keep : κ → ρ → Bool) (key : κ) :
    (table.retain keep).get key = (table.get key).filter (keep key) :=
  dlookup_filter _ table.rows.nodupKeys keep key

/-! ## Totals over the rows -/

section Totals

variable {M : Type} [AddCommMonoid M]

def sum (table : Table κ schema) (f : κ → ρ → M) : M :=
  (table.toList.map fun entry => f entry.1 entry.2).sum

/-- The total of `f` over the rows stored under other keys. -/
def sumOff (table : Table κ schema) (key : κ) (f : κ → ρ → M) : M :=
  ((table.rows.entries.kerase key).map fun entry => f entry.1 entry.2).sum

theorem sum_eq_entries (table : Table κ schema) (f : κ → ρ → M) :
    table.sum f = (table.rows.entries.map fun entry => f entry.1 entry.2).sum := by
  unfold sum toList
  rw [List.map_map]
  rfl

theorem sum_split (table : Table κ schema) (key : κ) (f : κ → ρ → M) :
    table.sum f = (table.get key).elim 0 (f key) + table.sumOff key f := by
  rw [sum_eq_entries]
  unfold sumOff get AList.lookup
  have distinct := table.rows.nodupKeys
  generalize table.rows.entries = entries at distinct
  induction entries with
  | nil => simp
  | cons entry rest ih =>
    obtain ⟨k, r⟩ := entry
    have parts := List.nodupKeys_cons.mp distinct
    by_cases same : key = k
    · subst same
      have erased : List.kerase key (⟨key, r⟩ :: rest) = rest := List.kerase_cons_eq rfl
      rw [erased, List.dlookup_cons_eq, List.map_cons, List.sum_cons]
      rfl
    · rw [List.kerase_cons_ne same, List.dlookup_cons_ne _ _ same, List.map_cons,
        List.map_cons, List.sum_cons, List.sum_cons, ih parts.2]
      exact add_left_comm _ _ _

theorem Puts.sumOff {before after : Table κ schema} {key : κ} {row : ρ}
    (write : Puts before key row after) (f : κ → ρ → M) :
    after.sumOff key f = before.sumOff key f := by
  have erased : List.kerase key (⟨key, row⟩ :: before.rows.entries.kerase key) =
      before.rows.entries.kerase key := List.kerase_cons_eq rfl
  unfold Table.sumOff
  rw [write.rows_eq, AList.entries_insert, erased]

theorem mem_of_mem_kerase {table : Table κ schema} {key : κ} {entry : Sigma fun _ : κ => ρ}
    (member : entry ∈ table.rows.entries.kerase key) :
    entry.1 ≠ key ∧ table.get entry.1 = some entry.2 := by
  have kept : entry ∈ table.rows.entries := (List.kerase_sublist _ _).subset member
  refine ⟨?_, AList.mem_lookup_iff.mpr kept⟩
  rintro rfl
  exact List.notMem_keys_kerase entry.1 table.rows.nodupKeys
    (List.mem_keys_of_mem member)

theorem sumOff_congr {table : Table κ schema} {key : κ} {f g : κ → ρ → M}
    (agree : ∀ other row, other ≠ key → table.get other = some row → f other row = g other row) :
    table.sumOff key f = table.sumOff key g := by
  unfold sumOff
  congr 1
  apply List.map_congr_left
  intro entry member
  have known := mem_of_mem_kerase member
  exact agree entry.1 entry.2 known.1 known.2

theorem sum_congr {table : Table κ schema} {f g : κ → ρ → M}
    (agree : ∀ key row, table.get key = some row → f key row = g key row) :
    table.sum f = table.sum g := by
  unfold sum
  congr 1
  apply List.map_congr_left
  intro entry member
  exact agree entry.1 entry.2 (mem_toList.mp member)

theorem sum_eq_zero {table : Table κ schema} {f : κ → ρ → M}
    (vanish : ∀ key row, table.get key = some row → f key row = 0) : table.sum f = 0 := by
  rw [sum_congr (g := fun _ _ => 0) vanish]
  unfold sum
  simp

/-- One write moves a total from the old contribution to the new one. -/
theorem Puts.sum {before after : Table κ schema} {key : κ} {row : ρ}
    (write : Puts before key row after) (f : κ → ρ → M) :
    after.sum f + (before.get key).elim 0 (f key) = before.sum f + f key row := by
  rw [sum_split after key, sum_split before key, write.get_self, write.sumOff]
  simp only [Option.elim_some]
  rw [add_comm (f key row + _), add_comm (f key row), add_assoc]

/-- Two totals over the same rows that differ at one key only. -/
theorem sum_exchange {table : Table κ schema} {key : κ} {f g : κ → ρ → M}
    (agree : ∀ other row, other ≠ key → table.get other = some row → f other row = g other row) :
    table.sum g + (table.get key).elim 0 (f key) =
      table.sum f + (table.get key).elim 0 (g key) := by
  rw [sum_split table key f, sum_split table key g, sumOff_congr agree, add_right_comm,
    add_right_comm _ _ ((table.get key).elim 0 (g key))]
  exact congrArg (· + table.sumOff key g) (add_comm _ _)

theorem countP_toList (table : Table κ schema) (wanted : κ → ρ → Bool) :
    table.toList.countP (fun entry => wanted entry.1 entry.2) =
      table.sum fun key row => if wanted key row = true then 1 else 0 := by
  unfold sum
  induction table.toList with
  | nil => rfl
  | cons entry rest ih =>
    rw [List.countP_cons, List.map_cons, List.sum_cons, ih, Nat.add_comm]

theorem sum_retain_le (table : Table κ schema) (keep : κ → ρ → Bool) (f : κ → ρ → Nat) :
    (table.retain keep).sum f ≤ table.sum f := by
  rw [sum_eq_entries, sum_eq_entries]
  exact (List.filter_sublist.map _).sum_le_sum (fun _ _ => Nat.zero_le _)

theorem sum_nonneg [Preorder M] [AddLeftMono M] {table : Table κ schema} {f : κ → ρ → M}
    (nonneg : ∀ key row, table.get key = some row → 0 ≤ f key row) : 0 ≤ table.sum f := by
  refine List.sum_nonneg fun value member => ?_
  obtain ⟨entry, stored, rfl⟩ := List.mem_map.mp member
  exact nonneg entry.1 entry.2 (mem_toList.mp stored)

theorem le_sum [PartialOrder M] [IsOrderedAddMonoid M] {table : Table κ schema} {f : κ → ρ → M}
    (nonneg : ∀ key row, table.get key = some row → 0 ≤ f key row) {key : κ} {row : ρ}
    (found : table.get key = some row) : f key row ≤ table.sum f := by
  refine List.single_le_sum ?_ _ (List.mem_map.mpr ⟨(key, row), mem_toList.mpr found, rfl⟩)
  intro value member
  obtain ⟨entry, stored, rfl⟩ := List.mem_map.mp member
  exact nonneg entry.1 entry.2 (mem_toList.mp stored)

end Totals

/-! ## Writes that may keep a row -/

/-- `after` is `before` with `row` at `key`; nothing is written when the row is already there. -/
def Sets (before : Table κ schema) (key : κ) (row : ρ) (after : Table κ schema) : Prop :=
  Puts before key row after ∨ (before.get key = some row ∧ after = before)

namespace Sets

variable {before after : Table κ schema} {key : κ} {row : ρ}

theorem of_get (found : before.get key = some row) : Sets before key row before :=
  .inr ⟨found, rfl⟩

theorem get (write : Sets before key row after) (other : κ) :
    after.get other = if other = key then some row else before.get other := by
  rcases write with put | ⟨found, rfl⟩
  · exact put.get other
  · by_cases same : other = key
    · rw [if_pos same, same, found]
    · rw [if_neg same]

theorem get_self (write : Sets before key row after) : after.get key = some row := by
  rw [write.get, if_pos rfl]

theorem get_of_ne (write : Sets before key row after) {other : κ} (differ : other ≠ key) :
    after.get other = before.get other := by
  rw [write.get, if_neg differ]

theorem column {α : Type} {old : ρ} (write : Sets before key row after)
    (found : before.get key = some old) (column : ρ → α) (same : column row = column old)
    (other : κ) : (after.get other).map column = (before.get other).map column := by
  by_cases here : other = key
  · subst here
    rw [write.get_self, found, Option.map_some, Option.map_some, same]
  · rw [write.get_of_ne here]

theorem keeps (write : Sets before key row after)
    (free : before.get key = none ∨ before.get key = some row) {other : κ} {kept : ρ}
    (found : before.get other = some kept) : after.get other = some kept := by
  by_cases same : other = key
  · subst same
    rcases free with none | some
    · cases none.symm.trans found
    · rw [write.get_self, ← some, found]
  · exact (write.get_of_ne same).trans found

theorem sum {M : Type} [AddCommMonoid M] (write : Sets before key row after) (f : κ → ρ → M) :
    after.sum f + (before.get key).elim 0 (f key) = before.sum f + f key row := by
  rcases write with put | ⟨found, rfl⟩
  · exact put.sum f
  · rw [found, Option.elim_some]

end Sets

end Table

end OufMcp.Relational
