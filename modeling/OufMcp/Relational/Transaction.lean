import OufMcp.Relational.Table

/-!
# Transactions as fallible computations

A transaction body returns an error or a result.  Rolling back is returning the
error, because the state before the transaction is what the caller still holds.
The inversion lemmas take a successful body apart statement by statement.
-/

namespace OufMcp.Relational

variable {ε α β : Type}

def ensure (condition : Prop) [Decidable condition] (error : ε) : Except ε Unit :=
  if condition then .ok () else .error error

def demand (error : ε) : Option α → Except ε α
  | some value => .ok value
  | none => .error error

def errorOf : Except ε α → Option ε
  | .error error => some error
  | .ok _ => none

theorem bind_eq_ok {first : Except ε α} {rest : α → Except ε β} {result : β} :
    (first >>= rest) = .ok result ↔ ∃ value, first = .ok value ∧ rest value = .ok result := by
  cases first with
  | error e =>
    constructor
    · exact nofun
    · rintro ⟨_, impossible, _⟩
      cases impossible
  | ok value =>
    constructor
    · intro done
      exact ⟨value, rfl, done⟩
    · rintro ⟨_, same, done⟩
      cases same
      exact done

theorem ensure_eq_ok {condition : Prop} [Decidable condition] {error : ε} {result : Unit} :
    ensure condition error = .ok result ↔ condition := by
  unfold ensure
  split <;> simp_all

theorem demand_eq_ok {error : ε} {value : Option α} {result : α} :
    demand error value = .ok result ↔ value = some result := by
  cases value <;> simp [demand]

theorem pure_eq_ok {value result : α} :
    (pure value : Except ε α) = .ok result ↔ value = result :=
  Except.ok.injEq value result ▸ Iff.rfl

theorem bind_eq_error {first : Except ε α} {rest : α → Except ε β} {error : ε} :
    (first >>= rest) = .error error ↔
      first = .error error ∨ ∃ value, first = .ok value ∧ rest value = .error error := by
  cases first with
  | error e =>
    constructor
    · intro failed
      exact .inl (congrArg Except.error (Except.error.inj failed))
    · rintro (failed | ⟨_, impossible, _⟩)
      · exact congrArg Except.error (Except.error.inj failed)
      · cases impossible
  | ok value =>
    constructor
    · intro failed
      exact .inr ⟨value, rfl, failed⟩
    · rintro (impossible | ⟨_, same, failed⟩)
      · cases impossible
      · cases same
        exact failed

theorem ensure_eq_error {condition : Prop} [Decidable condition] {error raised : ε} :
    ensure condition error = .error raised ↔ ¬ condition ∧ error = raised := by
  unfold ensure
  split <;> simp_all

theorem demand_eq_error {error raised : ε} {value : Option α} :
    demand error value = .error raised ↔ value = none ∧ error = raised := by
  cases value <;> simp [demand]

theorem pure_ne_error {value : α} {error : ε} : (pure value : Except ε α) ≠ .error error := by
  exact nofun

theorem map_snd_eq_ok {result : Except ε (α × β)} {state : β}
    (committed : result.map (·.2) = .ok state) : ∃ value, result = .ok (value, state) := by
  cases result with
  | error error => cases committed
  | ok pair =>
    cases committed
    exact ⟨pair.1, rfl⟩

/-- A loop of statements relates its ends by any reflexive and transitive relation
that every one of its passes, from a state related to the first, respects. -/
theorem foldlM_induction {σ : Type} {body : σ → α → Except ε σ} {R : σ → σ → Prop}
    (refl : ∀ s, R s s) (trans : ∀ a b c, R a b → R b c → R a c) {rows : List α} {first last : σ}
    (pass : ∀ s row t, row ∈ rows → R first s → body s row = .ok t → R s t)
    (done : rows.foldlM body first = .ok last) : R first last := by
  have general : ∀ (rest : List α) (s : σ), (∀ row ∈ rest, row ∈ rows) → R first s →
      rest.foldlM body s = .ok last → R first last := by
    intro rest
    induction rest with
    | nil =>
      intro s _ reached finished
      rw [List.foldlM_nil, pure_eq_ok] at finished
      exact finished ▸ reached
    | cons row rest ih =>
      intro s within reached finished
      rw [List.foldlM_cons, bind_eq_ok] at finished
      obtain ⟨t, passed, finished⟩ := finished
      refine ih t (fun other member => within other (List.mem_cons_of_mem _ member)) ?_ finished
      exact trans _ _ _ reached (pass s row t (within row (List.mem_cons_self ..)) reached passed)
  exact general rows first (fun _ member => member) (refl first) done

/-! ## Conditional updates -/

section Updates

variable {κ ρ : Type} [DecidableEq κ] {schema : Schema ρ}

/-- `UPDATE .. WHERE key AND condition`: the written relation and whether a row
was affected; nothing when the schema refuses the new row. -/
def Table.update? (table : Table κ schema) (key : κ) (condition : ρ → Prop)
    [DecidablePred condition] (set : ρ → ρ) : Option (Table κ schema × Bool) :=
  match table.get key with
  | none => some (table, false)
  | some row =>
    if condition row then (table.put? key (set row)).map fun after => (after, true)
    else some (table, false)

def Table.updateOne (table : Table κ schema) (key : κ) (condition : ρ → Prop)
    [DecidablePred condition] (set : ρ → ρ) (refused unaffected : ε) :
    Except ε (Table κ schema) :=
  match table.update? key condition set with
  | some (after, true) => .ok after
  | some (_, false) => .error unaffected
  | none => .error refused

def Table.updateAny (table : Table κ schema) (key : κ) (set : ρ → ρ) (refused : ε) :
    Except ε (Table κ schema) :=
  match table.update? key (fun _ => True) set with
  | some (after, _) => .ok after
  | none => .error refused

variable {table after : Table κ schema} {key : κ} {condition : ρ → Prop}
  [DecidablePred condition] {set : ρ → ρ} {refused unaffected : ε}

theorem Table.updateOne_eq_ok :
    table.updateOne key condition set refused unaffected = .ok after ↔
      ∃ row, table.get key = some row ∧ condition row ∧ Puts table key (set row) after := by
  unfold updateOne update? Puts
  cases found : table.get key with
  | none => simp
  | some row =>
    by_cases holds : condition row
    · simp only [holds, if_true, Option.some.injEq, exists_eq_left', true_and]
      cases table.put? key (set row) <;> simp
    · simp [holds]

theorem Table.updateAny_eq_ok :
    table.updateAny key set refused = .ok after ↔
      (table.get key = none ∧ after = table) ∨
        ∃ row, table.get key = some row ∧ Puts table key (set row) after := by
  unfold updateAny update? Puts
  cases found : table.get key with
  | none => simp [eq_comm]
  | some row =>
    simp only [if_true, Option.some.injEq, exists_eq_left', reduceCtorEq, false_and, false_or]
    cases table.put? key (set row) <;> simp

theorem Table.updateOne_of_get {row : ρ} (found : table.get key = some row)
    (done : table.updateOne key condition set refused unaffected = .ok after) :
    condition row ∧ Puts table key (set row) after := by
  obtain ⟨other, also, holds, put⟩ := updateOne_eq_ok.mp done
  obtain rfl := Option.some.inj (found.symm.trans also)
  exact ⟨holds, put⟩

theorem Table.updateAny_of_get {row : ρ} (found : table.get key = some row)
    (done : table.updateAny key set refused = .ok after) : Puts table key (set row) after := by
  rcases updateAny_eq_ok.mp done with ⟨none, -⟩ | ⟨other, also, put⟩
  · cases found.symm.trans none
  · obtain rfl := Option.some.inj (found.symm.trans also)
    exact put

end Updates

end OufMcp.Relational
