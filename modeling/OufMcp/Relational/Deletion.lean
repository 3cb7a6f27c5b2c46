import OufMcp.Relational.Table

/-!
# Deletion under foreign keys

A delete takes the rows that pass a test.  Where other relations refer to the
table it fails as a whole when one of the rows it would take is still referred to.
-/

namespace OufMcp.Relational

namespace Table

variable {κ : Type} [DecidableEq κ] {ρ : Type} {schema : Schema ρ}

def any (table : Table κ schema) (test : κ → ρ → Bool) : Bool :=
  table.toList.any fun entry => test entry.1 entry.2

theorem any_eq_true {table : Table κ schema} {test : κ → ρ → Bool} :
    table.any test = true ↔ ∃ key row, table.get key = some row ∧ test key row = true := by
  unfold any
  rw [List.any_eq_true]
  constructor
  · rintro ⟨⟨key, row⟩, member, passed⟩
    exact ⟨key, row, mem_toList.mp member, passed⟩
  · rintro ⟨key, row, found, passed⟩
    exact ⟨(key, row), mem_toList.mpr found, passed⟩

theorem any_eq_false {table : Table κ schema} {test : κ → ρ → Bool} :
    table.any test = false ↔ ∀ key row, table.get key = some row → test key row = false := by
  rw [← Bool.not_eq_true, any_eq_true]
  constructor
  · intro none key row found
    exact Bool.eq_false_iff.mpr fun passed => none ⟨key, row, found, passed⟩
  · rintro failed ⟨key, row, found, passed⟩
    exact Bool.eq_false_iff.mp (failed key row found) passed

def without (table : Table κ schema) (doomed : κ → ρ → Bool) : Table κ schema :=
  table.retain fun key row => !doomed key row

theorem get_without {table : Table κ schema} {doomed : κ → ρ → Bool} {key : κ} {row : ρ} :
    (table.without doomed).get key = some row ↔
      table.get key = some row ∧ doomed key row = false := by
  unfold without
  rw [get_retain, Option.filter_eq_some_iff, Bool.not_eq_true']

/-- A delete from a table that other relations refer to. -/
def delete? (table : Table κ schema) (doomed referenced : κ → ρ → Bool) :
    Option (Table κ schema) :=
  if table.any (fun key row => doomed key row && referenced key row) = true then none
  else some (table.without doomed)

theorem delete?_eq_some {table : Table κ schema} {doomed referenced : κ → ρ → Bool}
    (free : ∀ key row, table.get key = some row → doomed key row = true →
      referenced key row = false) :
    table.delete? doomed referenced = some (table.without doomed) := by
  refine if_neg ?_
  rw [any_eq_true]
  rintro ⟨key, row, found, both⟩
  obtain ⟨taken, kept⟩ := Bool.and_eq_true_iff.mp both
  rw [free key row found taken] at kept
  cases kept

theorem get_of_delete? {table after : Table κ schema} {doomed referenced : κ → ρ → Bool}
    (done : table.delete? doomed referenced = some after) :
    (∀ key row, after.get key = some row → table.get key = some row) ∧
      ∀ key row, table.get key = some row → referenced key row = true →
        after.get key = some row := by
  unfold delete? at done
  split at done
  next => cases done
  next free =>
    obtain rfl := Option.some.inj done
    refine ⟨fun key row found => (get_without.mp found).1, ?_⟩
    intro key row found used
    refine get_without.mpr ⟨found, Bool.eq_false_iff.mpr fun taken => free ?_⟩
    exact any_eq_true.mpr ⟨key, row, found, Bool.and_eq_true_iff.mpr ⟨taken, used⟩⟩

/-- The rows of `after` are the rows of `before` that meet a condition. -/
def Restricts (before after : Table κ schema) (keep : κ → ρ → Prop) : Prop :=
  ∀ key row, after.get key = some row ↔ before.get key = some row ∧ keep key row

theorem restricts_without {table : Table κ schema} {doomed : κ → ρ → Bool} {keep : κ → ρ → Prop}
    (exact : ∀ key row, table.get key = some row → (doomed key row = false ↔ keep key row)) :
    table.Restricts (table.without doomed) keep := by
  intro key row
  rw [get_without]
  exact and_congr_right (exact key row)

theorem Restricts.get_eq {before after : Table κ schema} {keep : κ → ρ → Prop}
    (restricts : before.Restricts after keep) {key : κ} (kept : ∀ row, keep key row) :
    after.get key = before.get key := by
  refine Option.ext fun row => ?_
  rw [restricts key row]
  exact and_iff_left (kept row)

theorem sum_without {M : Type} [AddCommMonoid M] {table : Table κ schema}
    {doomed : κ → ρ → Bool} {f : κ → ρ → M}
    (nothing : ∀ key row, table.get key = some row → doomed key row = true → f key row = 0) :
    (table.without doomed).sum f = table.sum f := by
  rw [sum_eq_entries, sum_eq_entries]
  have stored : ∀ entry ∈ table.rows.entries, table.get entry.1 = some entry.2 :=
    fun entry member => AList.mem_lookup_iff.mpr member
  change ((table.rows.entries.filter _).map _).sum = _
  generalize table.rows.entries = entries at stored
  induction entries with
  | nil => rfl
  | cons entry rest ih =>
    have tail := ih fun other member => stored other (List.mem_cons_of_mem entry member)
    cases taken : doomed entry.1 entry.2 with
    | true =>
      rw [List.filter_cons_of_neg (by simp [taken]), tail, List.map_cons, List.sum_cons,
        nothing entry.1 entry.2 (stored entry List.mem_cons_self) taken, zero_add]
    | false =>
      rw [List.filter_cons_of_pos (by simp [taken]), List.map_cons, List.sum_cons, tail,
        List.map_cons, List.sum_cons]

end Table

end OufMcp.Relational
