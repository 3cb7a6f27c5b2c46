import Mathlib.Logic.Relation

/-!
# Guarded transition systems

A system is a partial step function over events.  A run is restricted by a guard
on the state before each step, which lets one system carry both the results that
hold on all runs and those that hold on the runs whose steps meet a condition.
Concrete traces are replayed by evaluation.
-/

namespace OufMcp.Transition

structure System (σ ε : Type) where
  initial : σ → Prop
  step : σ → ε → Option σ

namespace System

variable {σ ε : Type} (system : System σ ε)

def Edge (guard : σ → ε → Prop) (source target : σ) : Prop :=
  ∃ event, guard source event ∧ system.step source event = some target

def Steps (guard : σ → ε → Prop) : σ → σ → Prop :=
  Relation.ReflTransGen (system.Edge guard)

def Reachable (guard : σ → ε → Prop) (state : σ) : Prop :=
  ∃ start, system.initial start ∧ system.Steps guard start state

def always (_ : σ) (_ : ε) : Prop := True

variable {system} {guard weaker : σ → ε → Prop}

theorem Reachable.of_initial {state : σ} (start : system.initial state) :
    system.Reachable guard state :=
  ⟨state, start, .refl⟩

theorem Reachable.step {state next : σ} {event : ε}
    (reached : system.Reachable guard state) (allowed : guard state event)
    (edge : system.step state event = some next) : system.Reachable guard next := by
  obtain ⟨start, initial, steps⟩ := reached
  exact ⟨start, initial, .tail steps ⟨event, allowed, edge⟩⟩

theorem Reachable.mono {state : σ} (implies : ∀ s e, guard s e → weaker s e)
    (reached : system.Reachable guard state) : system.Reachable weaker state := by
  obtain ⟨start, initial, steps⟩ := reached
  have wider : ∀ source target, system.Edge guard source target →
      system.Edge weaker source target := by
    rintro source target ⟨event, allowed, edge⟩
    exact ⟨event, implies _ _ allowed, edge⟩
  exact ⟨start, initial, Relation.ReflTransGen.mono wider _ _ steps⟩

/-- A property of initial states that every guarded step preserves is invariant. -/
theorem Reachable.induction {P : σ → Prop} {state : σ}
    (reached : system.Reachable guard state)
    (start : ∀ s, system.initial s → P s)
    (preserved : ∀ s e t, system.Reachable guard s → P s → guard s e →
      system.step s e = some t → P t) : P state := by
  obtain ⟨origin, initial, steps⟩ := reached
  induction steps with
  | refl => exact start origin initial
  | tail before edge ih =>
    obtain ⟨event, allowed, stepped⟩ := edge
    exact preserved _ event _ ⟨origin, initial, before⟩ ih allowed stepped

/-- A relation between the states of a run that is reflexive, transitive and
contains every step from a reached state relates the ends of a run. -/
theorem Steps.induction {R : σ → σ → Prop} {source target : σ}
    (reached : system.Reachable guard source) (steps : system.Steps guard source target)
    (refl : ∀ s, R s s) (trans : ∀ a b c, R a b → R b c → R a c)
    (edge : ∀ s e t, system.Reachable guard s → guard s e → system.step s e = some t → R s t) :
    R source target := by
  have both : R source target ∧ system.Reachable guard target := by
    induction steps with
    | refl => exact ⟨refl source, reached⟩
    | tail _ last ih =>
      obtain ⟨event, allowed, stepped⟩ := last
      exact ⟨trans _ _ _ ih.1 (edge _ event _ ih.2 allowed stepped),
        ih.2.step allowed stepped⟩
  exact both.1

/-! ## Recorded runs -/

/-- A state with the steps that led to it: each event with the state it was taken
in, the latest first. -/
structure Recorded (σ ε : Type) where
  state : σ
  record : List (σ × ε)

def recorded (system : System σ ε) : System (Recorded σ ε) ε where
  initial run := system.initial run.state ∧ run.record = []
  step run event := (system.step run.state event).map fun next =>
    ⟨next, (run.state, event) :: run.record⟩

theorem recorded_step {run later : Recorded σ ε} {event : ε}
    (stepped : system.recorded.step run event = some later) :
    system.step run.state event = some later.state ∧
      later.record = (run.state, event) :: run.record := by
  obtain ⟨next, taken, rfl⟩ := Option.map_eq_some_iff.mp stepped
  exact ⟨taken, rfl⟩

def onState (guard : σ → ε → Prop) (run : Recorded σ ε) (event : ε) : Prop := guard run.state event

theorem Reachable.of_recorded {run : Recorded σ ε}
    (reached : system.recorded.Reachable (onState guard) run) :
    system.Reachable guard run.state := by
  refine reached.induction (P := fun run => system.Reachable guard run.state) ?_ ?_
  · rintro run ⟨start, -⟩
    exact .of_initial start
  · intro run event later _ before allowed stepped
    exact before.step allowed (recorded_step stepped).1

/-! ## Replaying traces -/

/-- Replay a trace, stopping where an event is disabled or fails the test. -/
def replay (system : System σ ε) (test : σ → ε → Bool) : σ → List ε → Option σ
  | state, [] => some state
  | state, event :: rest =>
    if test state event then (system.step state event).bind fun next => replay system test next rest
    else none

theorem replay_steps {test : σ → ε → Bool} {trace : List ε}
    (sound : ∀ event ∈ trace, ∀ s, test s event = true → guard s event) {state final : σ}
    (replayed : replay system test state trace = some final) : system.Steps guard state final := by
  induction trace generalizing state with
  | nil =>
    cases replayed
    exact .refl
  | cons event rest ih =>
    unfold replay at replayed
    split at replayed
    next passed =>
      cases stepped : system.step state event with
      | none => simp [stepped] at replayed
      | some next =>
        rw [stepped] at replayed
        exact .head ⟨event, sound event List.mem_cons_self _ passed, stepped⟩
          (ih (fun later member => sound later (.tail _ member)) replayed)
    next => cases replayed

theorem exists_reachable {test : σ → ε → Bool} {trace : List ε}
    (sound : ∀ event ∈ trace, ∀ s, test s event = true → guard s event)
    {start : σ} (initial : system.initial start) {check : σ → Bool}
    (accepted : (replay system test start trace).any check = true) :
    ∃ state, replay system test start trace = some state ∧ system.Reachable guard state ∧
      check state = true := by
  cases replayed : replay system test start trace with
  | none =>
    rw [replayed] at accepted
    cases accepted
  | some state =>
    rw [replayed] at accepted
    exact ⟨state, rfl, ⟨start, initial, replay_steps sound replayed⟩, accepted⟩

end System

end OufMcp.Transition
