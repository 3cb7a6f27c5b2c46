import OufMcp.Relational.Transaction

/-!
# Computations that ask questions

A dialogue ends with a result or asks a question and continues from its answer.
Nothing is assumed about the party that answers, so a fact about every way of
answering is a fact about every behaviour of that party.  `run` answers from a
table, and `asked` lists the questions put on the way.
-/

namespace OufMcp.Interaction

inductive Dialogue (Q A ε α : Type) where
  | done (result : Except ε α)
  | ask (question : Q) (next : A → Dialogue Q A ε α)

namespace Dialogue

variable {Q A ε α β : Type}

def bind (first : Dialogue Q A ε α) (rest : α → Dialogue Q A ε β) : Dialogue Q A ε β :=
  match first with
  | .done (.ok value) => rest value
  | .done (.error error) => .done (.error error)
  | .ask question next => .ask question fun answer => (next answer).bind rest

instance : Monad (Dialogue Q A ε) where
  pure value := .done (.ok value)
  bind := bind

instance : MonadLift (Except ε) (Dialogue Q A ε) where
  monadLift := .done

def query (question : Q) : Dialogue Q A ε A := .ask question pure

def run (answer : Q → A) : Dialogue Q A ε α → Except ε α
  | .done result => result
  | .ask question next => (next (answer question)).run answer

/-- The questions put when they are answered in this way, in order. -/
def asked (answer : Q → A) : Dialogue Q A ε α → List Q
  | .done _ => []
  | .ask question next => question :: (next (answer question)).asked answer

variable (answer : Q → A)

@[simp] theorem run_pure (value : α) : (pure value : Dialogue Q A ε α).run answer = .ok value := rfl

@[simp] theorem run_lift (result : Except ε α) :
    (monadLift result : Dialogue Q A ε α).run answer = result := rfl

@[simp] theorem run_query (question : Q) :
    (query question : Dialogue Q A ε A).run answer = .ok (answer question) := rfl

@[simp] theorem asked_pure (value : α) : (pure value : Dialogue Q A ε α).asked answer = [] := rfl

@[simp] theorem asked_lift (result : Except ε α) :
    (monadLift result : Dialogue Q A ε α).asked answer = [] := rfl

@[simp] theorem asked_query (question : Q) :
    (query question : Dialogue Q A ε A).asked answer = [question] := rfl

@[simp] theorem run_bind (first : Dialogue Q A ε α) (rest : α → Dialogue Q A ε β) :
    (first >>= rest).run answer = first.run answer >>= fun value => (rest value).run answer := by
  change (first.bind rest).run answer = _
  induction first with
  | done result => cases result <;> rfl
  | ask question next ih => exact ih (answer question)

theorem asked_bind_of_ok {first : Dialogue Q A ε α} {value : α}
    (succeeded : first.run answer = .ok value) (rest : α → Dialogue Q A ε β) :
    (first >>= rest).asked answer = first.asked answer ++ (rest value).asked answer := by
  change (first.bind rest).asked answer = _
  induction first with
  | done result =>
    cases succeeded
    rfl
  | ask question next ih => exact congrArg (question :: ·) (ih (answer question) succeeded)

theorem asked_bind_of_error {first : Dialogue Q A ε α} {error : ε}
    (failed : first.run answer = .error error) (rest : α → Dialogue Q A ε β) :
    (first >>= rest).asked answer = first.asked answer := by
  change (first.bind rest).asked answer = _
  induction first with
  | done result =>
    cases failed
    rfl
  | ask question next ih => exact congrArg (question :: ·) (ih (answer question) failed)

theorem asked_bind_of_silent {first : Dialogue Q A ε α} {rest : α → Dialogue Q A ε β}
    (silent : ∀ value, (rest value).asked answer = []) :
    (first >>= rest).asked answer = first.asked answer := by
  cases outcome : first.run answer with
  | error error => exact asked_bind_of_error answer outcome rest
  | ok value => rw [asked_bind_of_ok answer outcome, silent, List.append_nil]

/-- Every question is put by the dialogue or by a continuation that it reaches. -/
theorem mem_asked_bind {first : Dialogue Q A ε α} {rest : α → Dialogue Q A ε β} {question : Q}
    (member : question ∈ (first >>= rest).asked answer) :
    question ∈ first.asked answer ∨
      ∃ value, first.run answer = .ok value ∧ question ∈ (rest value).asked answer := by
  cases outcome : first.run answer with
  | error error =>
    rw [asked_bind_of_error answer outcome] at member
    exact .inl member
  | ok value =>
    rw [asked_bind_of_ok answer outcome, List.mem_append] at member
    exact member.imp id fun later => ⟨value, rfl, later⟩

theorem pairwise_asked_bind {R : Q → Q → Prop} {first : Dialogue Q A ε α}
    {rest : α → Dialogue Q A ε β} (head : (first.asked answer).Pairwise R)
    (tail : ∀ value, first.run answer = .ok value → ((rest value).asked answer).Pairwise R)
    (across : ∀ value, first.run answer = .ok value → ∀ a ∈ first.asked answer,
      ∀ b ∈ (rest value).asked answer, R a b) :
    ((first >>= rest).asked answer).Pairwise R := by
  cases outcome : first.run answer with
  | error error =>
    rw [asked_bind_of_error answer outcome]
    exact head
  | ok value =>
    rw [asked_bind_of_ok answer outcome, List.pairwise_append]
    exact ⟨head, tail value outcome, across value outcome⟩

/-- Bounds on the questions of a dialogue and of its continuation add up. -/
theorem length_asked_bind_le {first : Dialogue Q A ε α} {rest : α → Dialogue Q A ε β}
    {m n : Nat} (head : (first.asked answer).length ≤ m)
    (tail : ∀ value, first.run answer = .ok value → ((rest value).asked answer).length ≤ n) :
    ((first >>= rest).asked answer).length ≤ m + n := by
  cases outcome : first.run answer with
  | error error =>
    rw [asked_bind_of_error answer outcome]
    exact head.trans (Nat.le_add_right m n)
  | ok value =>
    rw [asked_bind_of_ok answer outcome, List.length_append]
    exact Nat.add_le_add head (tail value outcome)

theorem run_bind_eq_ok {first : Dialogue Q A ε α} {rest : α → Dialogue Q A ε β} {result : β} :
    (first >>= rest).run answer = .ok result ↔
      ∃ value, first.run answer = .ok value ∧ (rest value).run answer = .ok result := by
  rw [run_bind, Relational.bind_eq_ok]

/-! ## Budgets -/

/-- With `used` questions put before, the dialogue stays within `limit`, and its
result records what has been used. -/
structure Within (limit used : Nat) (dialogue : Dialogue Q A ε α) (spent : α → Nat) : Prop where
  total : (dialogue.asked answer).length + used ≤ limit
  recorded : ∀ value, dialogue.run answer = .ok value →
    (dialogue.asked answer).length + used ≤ spent value ∧ spent value ≤ limit

variable {answer} {limit used : Nat}

theorem Within.pure {value : α} {spent : α → Nat} (more : used ≤ spent value)
    (room : spent value ≤ limit) :
    Within answer limit used (Pure.pure value : Dialogue Q A ε α) spent where
  total := (Nat.zero_add used).le.trans (more.trans room)
  recorded result same := by
    cases same
    exact ⟨(Nat.zero_add used).le.trans more, room⟩

theorem Within.lift (result : Except ε α) (room : used ≤ limit) :
    Within answer limit used (monadLift result : Dialogue Q A ε α) fun _ => used where
  total := (Nat.zero_add used).le.trans room
  recorded _ _ := ⟨(Nat.zero_add used).le, room⟩

theorem Within.bind {first : Dialogue Q A ε α} {rest : α → Dialogue Q A ε β} {between : α → Nat}
    {spent : β → Nat} (head : Within answer limit used first between)
    (tail : ∀ value, first.run answer = .ok value →
      Within answer limit (between value) (rest value) spent) :
    Within answer limit used (first >>= rest) spent := by
  cases outcome : first.run answer with
  | error error =>
    refine ⟨(asked_bind_of_error answer outcome rest).symm ▸ head.total, fun value ran => ?_⟩
    rw [run_bind, outcome] at ran
    cases ran
  | ok middle =>
    have spentFirst := (head.recorded middle outcome).1
    have after := tail middle outcome
    have asked := asked_bind_of_ok answer outcome rest
    have carried : ((first >>= rest).asked answer).length + used ≤
        ((rest middle).asked answer).length + between middle := by
      rw [asked, List.length_append]
      omega
    refine ⟨carried.trans after.total, fun value ran => ?_⟩
    rw [run_bind, outcome] at ran
    obtain ⟨recorded, room⟩ := after.recorded value ran
    exact ⟨carried.trans recorded, room⟩

end Dialogue

end OufMcp.Interaction
