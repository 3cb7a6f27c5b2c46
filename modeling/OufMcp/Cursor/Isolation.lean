import OufMcp.Cursor.Replay

/-!
# Who reads a session

A cursor token opens nothing by itself: a session is stored with the binding it was created
under, a page is committed only under that binding, and a call works under the binding of
its own caller.  Identifiers are never drawn twice, so this outlasts the rows.
-/

namespace OufMcp.Cursor

open Ledger (UUID Time)
open Relational Transition

variable {codec : Codec}

variable (codec) in
def Caller.Binds (caller : Caller) (binding : CursorBinding) : Prop :=
  bindIncidentCursor codec caller.identity caller.policyRef caller.manifest = .ok binding

theorem Caller.Binds.same {a b : Caller} {binding : CursorBinding} (one : a.Binds codec binding)
    (two : b.Binds codec binding) : a.identity.canonical = b.identity.canonical ∧
      a.policyRef = b.policyRef ∧ a.manifest = b.manifest := by
  simp only [Caller.Binds, bindIncidentCursor, bind_eq_ok, ensure_eq_ok, pure_eq_ok] at one two
  obtain ⟨_, -, _, -, rfl⟩ := one
  obtain ⟨_, -, _, -, same⟩ := two
  simp only [CursorBinding.mk.injEq, Digest.mk.injEq, Evidence.cursor.injEq] at same
  exact ⟨same.2.2.1.symm, same.2.2.2.1.symm, same.2.2.2.2.symm⟩

def Phase.Bound : Phase codec → Prop
  | .loaded caller binding _ => caller.Binds codec binding
  | .holding work => work.caller.Binds codec work.binding
  | .composed draft | .ready draft _ _ => draft.caller.Binds codec draft.binding
  | .idle | .resuming .. | .returned _ => True

namespace Composers

variable {state next : Composers codec} {event : ComposerEvent}

/-! ## Callers and bindings -/

/-- A call works under the binding of its caller from the step that reads its session on. -/
theorem Outcome.bound (outcome : state.Outcome event next)
    (bound : ∀ call, (state.calls call).Bound) : ∀ call, (next.calls call).Bound := by
  have carried {call : Nat} {phase : Phase codec} (before : state.calls call = phase) :
      phase.Bound := before ▸ bound call
  cases outcome with
  | fails enters => exact forall_calls enters.calls trivial bound
  | resumes _ _ _ enters => exact forall_calls enters.calls trivial bound
  | loads _ binds _ enters => exact forall_calls enters.calls binds bound
  | readsBack before _ enters =>
    have here := carried before
    exact forall_calls enters.calls here bound
  | composes before _ enters =>
    have here := carried before
    exact forall_calls enters.calls here bound
  | seals before _ _ _ enters =>
    have here := carried before
    exact forall_calls enters.calls here bound
  | opens opens => exact forall_calls opens.calls opens.binds bound
  | commits commits => exact forall_calls commits.calls trivial bound

/-! ## Sessions and bindings -/

/-- The pages of a session were delivered under one binding, which its row keeps. -/
structure Confined (state : Composers codec) : Prop where
  bound : ∀ call, (state.calls call).Bound
  logged : ∀ delivery ∈ state.log, delivery.caller.Binds codec delivery.binding
  stored : ∀ delivery ∈ state.log, ∀ held,
    state.stored.store.sessions.get delivery.node.session = some held →
      held.binding = delivery.binding
  agreed : ∀ a ∈ state.log, ∀ b ∈ state.log, a.node.session = b.node.session →
    a.binding = b.binding

theorem Kept.session_old (kept : state.Kept) (outcome : state.Outcome event next)
    {delivery : Delivery codec} (member : delivery ∈ state.log) {held : CursorSession}
    (found : next.stored.store.sessions.get delivery.node.session = some held) :
    state.stored.store.sessions.get delivery.node.session = some held := by
  rcases outcome.stored with same | ⟨storeEvent, stepped⟩
  · rwa [same] at found
  obtain ⟨moves, -, -, fresh⟩ := StoreState.step_moves stepped
  rcases moves.retains.sessionFrom _ _ found with drawn | before
  · exact absurd (kept.issued _ (kept.delivered _ member).2.1).2 (fresh _ drawn)
  · exact before

theorem Outcome.log (outcome : state.Outcome event next) (kept : state.Kept)
    (bound : ∀ call, (state.calls call).Bound) : next.log = state.log ∨
      ∃ delivery held, next.log = delivery :: state.log ∧
        delivery.caller.Binds codec delivery.binding ∧ held.binding = delivery.binding ∧
        state.stored.store.sessions.get delivery.node.session = some held ∧
        next.stored.store.sessions = state.stored.store.sessions := by
  cases outcome with
  | fails enters | resumes _ _ _ enters | loads _ _ _ enters | readsBack _ _ enters
  | composes _ _ enters | seals _ _ _ _ enters => exact .inl enters.log
  | opens opens => exact .inl opens.log
  | @commits call _ _ _ delivery _ commits =>
    obtain ⟨row, held, found, -, committed⟩ := Store.commitIncidentCursorPage_eq_ok commits.done
    obtain ⟨present, session, binding⟩ := Store.findNode_eq_some.mp found
    obtain ⟨_, -, same⟩ := kept.node_eq (kept.ready commits.before).1 present
    have here := bound call
    rw [commits.before] at here
    refine .inr ⟨_, held, commits.log, here, binding, ?_, ?_⟩
    · exact (congrArg _ (congrArg CursorNode.session same)).trans session
    · generalize next.stored.store = after at committed
      generalize delivery.continuation = continuation at committed
      generalize delivery.next = result at committed
      cases committed <;> rfl

theorem Confined.step (confined : state.Confined) (kept : state.Kept)
    (stepped : (composerSystem codec).step state event = some next) : next.Confined := by
  have outcome := step_outcome stepped
  have bound := outcome.bound confined.bound
  have old : ∀ delivery ∈ state.log, ∀ held,
      next.stored.store.sessions.get delivery.node.session = some held →
        held.binding = delivery.binding := fun delivery member held found =>
    confined.stored delivery member held (kept.session_old outcome member found)
  rcases outcome.log kept confined.bound with same | ⟨new, held, log, binds, own, found, sessions⟩
  · exact ⟨bound, same ▸ confined.logged, same ▸ old, same ▸ confined.agreed⟩
  have with_new : ∀ other ∈ state.log, new.node.session = other.node.session →
      new.binding = other.binding := fun other member same =>
    own.symm.trans (confined.stored other member held (same ▸ found))
  refine ⟨bound, ?_, ?_, ?_⟩
  · rw [log]
    exact List.forall_mem_cons.mpr ⟨binds, confined.logged⟩
  · rw [log]
    refine List.forall_mem_cons.mpr ⟨fun later there => ?_, old⟩
    rw [sessions, found] at there
    exact Option.some.inj there ▸ own
  · rw [log]
    rintro a (_ | ⟨_, first⟩) b (_ | ⟨_, second⟩) same
    · rfl
    · exact with_new b second same
    · exact (with_new a first same.symm).symm
    · exact confined.agreed a first b second same

end Composers

/-- Every page of a session that is ever delivered, in any interleaving of starts, resumes and
page calls, goes to one identity, up to the order and repetition of its scopes, roles and
methods, under one policy decision and one manifest. -/
theorem session_confined {state : Composers codec}
    (reached : (composerSystem codec).Reachable System.always state) {a b : Delivery codec}
    (first : a ∈ state.log) (second : b ∈ state.log) (same : a.node.session = b.node.session) :
    a.caller.identity.canonical = b.caller.identity.canonical ∧
      a.caller.policyRef = b.caller.policyRef ∧ a.caller.manifest = b.caller.manifest := by
  have confined : state.Confined := by
    refine reached.induction ?_ fun _ _ _ before confined _ stepped =>
      confined.step (Composers.kept_of_reachable before) stepped
    rintro _ ⟨now, rfl⟩
    exact ⟨fun _ => trivial, fun _ => False.elim ∘ List.not_mem_nil,
      fun _ => False.elim ∘ List.not_mem_nil, fun _ => False.elim ∘ List.not_mem_nil⟩
  have binding := confined.agreed a first b second same
  exact (confined.logged a first).same (binding ▸ confined.logged b second)

def delivers (state : Composers sampleCodec) : Bool :=
  state.log.any fun a => state.log.any fun b =>
    decide (a.node.token ≠ b.node.token ∧ a.node.session = b.node.session)

theorem session_confined_pagedTwice :
    ∃ state a b, replayComposers pagedTwice = some state ∧ a ∈ state.log ∧ b ∈ state.log ∧
      a.node.token ≠ b.node.token ∧
      a.caller.identity.canonical = b.caller.identity.canonical := by
  obtain ⟨state, replayed, reached, checked⟩ :=
    replayComposers_reachable (fun _ _ _ => trivial) delivers
      (show (replayComposers pagedTwice).any delivers = true by decide +kernel)
  obtain ⟨a, first, paired⟩ := List.any_eq_true.mp checked
  obtain ⟨b, second, found⟩ := List.any_eq_true.mp paired
  obtain ⟨differ, same⟩ := of_decide_eq_true found
  exact ⟨state, a, b, replayed, first, second, differ,
    (session_confined reached first second same).1⟩

end OufMcp.Cursor
