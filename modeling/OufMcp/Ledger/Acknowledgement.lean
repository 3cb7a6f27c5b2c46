import OufMcp.Ledger.Steps

/-!
# What an acknowledgement rests on

An attempt that is acknowledged should have been answered by the gateway or shown
by owner evidence.  A call settles whatever `Gateway.Execute` returned, an error
included, so this holds on the runs in which every call that returns from the
gateway returns with a response.
-/

namespace OufMcp.Ledger

open Relational Transition

/-- A step in which the gateway answered the dispatched call of an attempt. -/
def Answers (id : UUID) (taken : State × Event) : Prop :=
  ∃ caller reply call backendRequestId, taken.2 = .execute caller reply ∧ reply.failed = false ∧
    taken.1.calls caller = .dispatched call id backendRequestId

/-- A step that processed owner evidence for an attempt's backend request.  The answer of a
recovery query was applied to the uncertain attempt and decides it, or a row of the evidence
inbox concluded it.  An answer `UNKNOWN`, which a worker also makes up when the owner cannot
be asked, and a call that fails are no evidence. -/
def Evidences (id : UUID) (taken : State × Event) : Prop :=
  ∃ attempt request, taken.1.db.attempts.get id = some attempt ∧
    attempt.backendRequestId = some request ∧
    ((∃ stamp worker evidence after, taken.2 = .applyOwnerEvidence stamp id worker evidence ∧
        attempt.state = .unknown ∧ evidence.backendRequestId = request ∧
        evidence.outcome ≠ .unknown ∧
        Store.applyOwnerEvidence taken.1.db stamp id worker evidence = .ok after) ∨
      ∃ seen stamp ref revision evidence result after,
        taken.2 = .lateCompensate seen stamp id ref revision ∧
        taken.1.db.evidence.get ref = some evidence ∧ evidence.backendRequestId = request ∧
        Store.lateCompensate (taken.1.snapshot seen) taken.1.db stamp id ref revision =
          .ok (result, after) ∧ result.disposition.concludes = true)

/-- Some step of a run answered or evidenced the attempt. -/
def Shown (record : List (State × Event)) (id : UUID) : Prop :=
  ∃ taken ∈ record, Answers id taken ∨ Evidences id taken

/-- Where an attempt stands that nothing is known about: not sent, running, or lost. -/
def ToolAttempt.Unanswered (attempt : ToolAttempt) : Prop :=
  (attempt.backendRequestId = none ∧ attempt.dispatchState = .notDispatched) ∨
    (attempt.state = .running ∧ attempt.dispatchState = .dispatched) ∨
    (attempt.state.uncertain = true ∧ attempt.dispatchState = .unknown)

/-! ## Changes -/

def Kind.blind : Kind → Bool
  | .settle _ | .recover | .violate _ | .compensate _ _ => false
  | _ => true

theorem Change.unanswered {kind : Kind} {old new : Rows} (change : Change kind old new)
    (blind : kind.blind = true) (sound : old.Sound) (before : old.attempt.Unanswered) :
    new.attempt.Unanswered := by
  cases change with
  | dispatch => exact .inr (.inl ⟨rfl, rfl⟩)
  | releaseAdmission stamp admitted => exact .inl ⟨sound.unsent admitted, rfl⟩
  | lose => exact .inr (.inr ⟨rfl, rfl⟩)
  | hold owner unknown => cases owner <;> exact before
  | expire now unknown =>
    rcases before with unsent | ⟨running, -⟩ | ⟨-, lost⟩
    · exact .inl unsent
    · rw [unknown] at running
      cases running
    · exact .inr (.inr ⟨rfl, lost⟩)
  | settle | recover | violate | compensateUnresolved | compensateUnknown => cases blind

theorem Moves.unanswered {allowed : Kind → Prop} {before after : Database}
    (moves : Moves allowed before after) (formed : before.WellFormed)
    (blind : ∀ kind, allowed kind → kind.blind = true) {id : UUID} {rows : Rows}
    (held : before.Holds id rows) (unanswered : rows.attempt.Unanswered) :
    ∃ later, after.Holds id later ∧ later.attempt.Unanswered := by
  refine moves.invariant (P := fun db => ∃ later, db.Holds id later ∧ later.attempt.Unanswered)
    formed ⟨rows, held, unanswered⟩ ?_
  rintro kind a b member formed move ⟨middle, there, soFar⟩
  obtain ⟨later, arrived, same | change⟩ := move.forward there
  · exact ⟨later, arrived, same.attempt ▸ soFar⟩
  · exact ⟨later, arrived, change.unanswered (blind kind member) (formed.sound there) soFar⟩

/-! ## Steps -/

theorem applyOwnerEvidence_request {db after : Database} {stamp : Time} {id : UUID}
    {worker : String} {evidence : OwnerEvidence}
    (done : Store.applyOwnerEvidence db stamp id worker evidence = .ok after) :
    after = db ∨ ∃ attempt, db.attempts.get id = some attempt ∧ attempt.state = .unknown ∧
      attempt.backendRequestId = some evidence.backendRequestId := by
  unfold Store.applyOwnerEvidence at done
  simp only [bind_eq_ok, demand_eq_ok] at done
  obtain ⟨context, -, attempt, found, backendRequestId, sent, done⟩ := done
  split at done
  next => exact .inl (pure_eq_ok.mp done).symm
  next unknown =>
    simp only [bind_eq_ok, ensure_eq_ok, exists_const] at done
    obtain ⟨⟨-, same⟩, -⟩ := done
    exact .inr ⟨attempt, found, Decidable.not_not.mp unknown, same ▸ sent⟩

theorem Event.blind_of_allows {event : Event} {kind : Kind} (allowed : event.allows kind)
    (settles : ∀ caller stamp, event ≠ .reconcile caller stamp)
    (applies : ∀ stamp id worker evidence, event ≠ .applyOwnerEvidence stamp id worker evidence)
    (compensates : ∀ seen stamp id ref revision,
      event ≠ .lateCompensate seen stamp id ref revision) : kind.blind = true := by
  cases event with
  | reconcile caller stamp => exact absurd rfl (settles caller stamp)
  | applyOwnerEvidence stamp id worker evidence =>
    exact absurd rfl (applies stamp id worker evidence)
  | lateCompensate seen stamp id ref revision =>
    exact absurd rfl (compensates seen stamp id ref revision)
  | reserve => rcases allowed with rfl | rfl <;> rfl
  | markStaleAndClaim => rcases allowed with rfl | rfl | rfl <;> rfl
  | dispatch | audit | expireUnknown | insertVerifiedEvidence => cases allowed; rfl
  | begin | abort | execute | abandon | maintain => exact allowed.elim

theorem Touches.unanswered {key id : UUID} {before after : Database} {kind : Kind}
    {old new rows : Rows} (touch : Touches key before after old new)
    (change : Change kind old new) (held : before.Holds id rows)
    (unanswered : rows.attempt.Unanswered) {explained : Prop} (explains : id = key → explained) :
    ∃ later, after.Holds id later ∧ (later.attempt.Unanswered ∨ explained) := by
  by_cases same : id = key
  · subst same
    exact ⟨new, touch.holds, .inr (explains rfl)⟩
  · obtain ⟨later, arrived, -⟩ := touch.forward change held
    have kept := arrived.attempt.symm.trans ((touch.attempts.get_of_ne same).trans held.attempt)
    exact ⟨later, arrived, .inl (Option.some.inj kept ▸ unanswered)⟩

theorem lateCompensate_unanswered {state next : State} {seen : Nat} {stamp : Time} {key ref : UUID}
    {revision : Int} (valid : state.Valid)
    (stepped : state.step (.lateCompensate seen stamp key ref revision) = some next) {id : UUID}
    {rows : Rows} (held : state.db.Holds id rows) (unanswered : rows.attempt.Unanswered) :
    ∃ later, next.db.Holds id later ∧ (later.attempt.Unanswered ∨
      Evidences id (state, .lateCompensate seen stamp key ref revision)) := by
  have unchanged : ∃ later, state.db.Holds id later ∧ (later.attempt.Unanswered ∨
      Evidences id (state, .lateCompensate seen stamp key ref revision)) :=
    ⟨rows, held, .inl unanswered⟩
  cases stepped
  cases committed : (Store.lateCompensate (state.snapshot seen) state.db stamp key ref
      revision).map (·.2) with
  | error error => exact unchanged
  | ok db =>
    obtain ⟨result, done⟩ := map_snd_eq_ok committed
    have explains : result.disposition.concludes = true → ∀ row,
        state.db.evidence.get ref = some row → row.attemptId = key → id = row.attemptId →
        Evidences id (state, .lateCompensate seen stamp key ref revision) := by
      rintro concluded row found rfl rfl
      obtain ⟨bound, there, binds⟩ := valid.formed.inbox ref row found
      exact ⟨bound.attempt, row.backendRequestId, there.attempt, binds.request,
        .inr ⟨seen, stamp, ref, revision, row, result, db, rfl, found, rfl, done, concluded⟩⟩
    rcases lateCompensate_move valid.formed done with
      rfl | note | ⟨concluded, ⟨named, inbox, mine⟩, ⟨-, move⟩ | ⟨inserted, move⟩⟩
    · exact unchanged
    · obtain ⟨later, arrived, same | change⟩ := note.forward held
      · exact ⟨later, arrived, .inl (same.attempt ▸ unanswered)⟩
      · exact ⟨later, arrived,
          .inl (change.unanswered rfl (valid.formed.sound held) unanswered)⟩
    · cases move with
      | violate _ found verified touch change put objects adjustments =>
        obtain rfl := Option.some.inj (inbox.symm.trans found)
        exact touch.unanswered change held unanswered (explains concluded _ inbox mine)
      | rewrite rewrites => cases rewrites.plain
    · cases move with
      | compensate _ found verified touch change put counted unadjusted adjusts adjustments =>
        obtain rfl := Option.some.inj (inbox.symm.trans found)
        exact touch.unanswered change held unanswered (explains concluded _ inbox mine)
      | rewrite rewrites => cases rewrites.plain

/-- An attempt that nothing is known about stays so, unless the step settles it for its call
or processes evidence for it. -/
theorem step_unanswered {state next : State} {event : Event} (valid : state.Valid)
    (stepped : state.step event = some next) {id : UUID} {rows : Rows}
    (held : state.db.Holds id rows) (unanswered : rows.attempt.Unanswered) :
    ∃ later, next.db.Holds id later ∧ (later.attempt.Unanswered ∨ Evidences id (state, event) ∨
      ∃ caller actual outcome, state.calls caller = .replied id actual outcome) := by
  by_cases settles : ∃ caller stamp, event = .reconcile caller stamp
  · obtain ⟨caller, stamp, rfl⟩ := settles
    rcases step_reconcile valid stepped with
      same | ⟨key, actual, outcome, old, new, phase, rewrites⟩
    · rw [same]
      exact ⟨rows, held, .inl unanswered⟩
    · refine rewrites.touch.unanswered rewrites.change held unanswered fun same => .inr ?_
      exact ⟨caller, actual, outcome, same ▸ phase⟩
  by_cases compensates : ∃ seen stamp key ref revision,
      event = .lateCompensate seen stamp key ref revision
  · obtain ⟨seen, stamp, key, ref, revision, rfl⟩ := compensates
    obtain ⟨later, arrived, still | evidenced⟩ :=
      lateCompensate_unanswered valid stepped held unanswered
    · exact ⟨later, arrived, .inl still⟩
    · exact ⟨later, arrived, .inr (.inl evidenced)⟩
  by_cases applies : ∃ stamp key worker evidence,
      event = .applyOwnerEvidence stamp key worker evidence
  · obtain ⟨stamp, key, worker, evidence, rfl⟩ := applies
    cases stepped
    cases done : Store.applyOwnerEvidence state.db stamp key worker evidence with
    | error error => exact ⟨rows, held, .inl unanswered⟩
    | ok db =>
      rcases applyOwnerEvidence_request done with rfl | ⟨attempt, found, unknown, request⟩
      · exact ⟨rows, held, .inl unanswered⟩
      rcases applyOwnerEvidence_rewrites valid.formed done with
        rfl | ⟨old, new, rewrites⟩ | ⟨decided, old, new, rewrites⟩
      · exact ⟨rows, held, .inl unanswered⟩
      · -- The worker lets go of the attempt, and knows no more than before.
        obtain ⟨later, arrived, same | change⟩ := (Move.rewrite rewrites).forward held
        · exact ⟨later, arrived, .inl (same.attempt ▸ unanswered)⟩
        · exact ⟨later, arrived,
            .inl (change.unanswered rfl (valid.formed.sound held) unanswered)⟩
      · refine rewrites.touch.unanswered rewrites.change held unanswered fun same => .inl ?_
        subst same
        exact ⟨attempt, _, found, request,
          .inl ⟨stamp, worker, evidence, db, rfl, unknown, rfl, decided, done⟩⟩
  · obtain ⟨later, arrived, still⟩ := (step_moves valid stepped).unanswered valid.formed
      (fun kind member => Event.blind_of_allows member
        (fun caller stamp same => settles ⟨caller, stamp, same⟩)
        (fun stamp key worker evidence same => applies ⟨stamp, key, worker, evidence, same⟩)
        fun seen stamp key ref revision same =>
          compensates ⟨seen, stamp, key, ref, revision, same⟩) held unanswered
    exact ⟨later, arrived, .inl still⟩

/-! ## Runs -/

/-- A step in which no call returns from the gateway without a response. -/
def Event.responds : Event → Bool
  | .execute _ reply => !reply.failed
  | _ => true

/-- What holds along a run: an attempt that something is known about was shown, and so was
one whose call has its reply. -/
structure Explained (run : System.Recorded State Event) : Prop where
  attempts : ∀ id rows, run.state.db.Holds id rows →
    rows.attempt.Unanswered ∨ Shown run.record id
  replies : ∀ caller id actual outcome, run.state.calls caller = .replied id actual outcome →
    Shown run.record id

theorem Shown.later {record : List (State × Event)} {id : UUID} (shown : Shown record id)
    (taken : State × Event) : Shown (taken :: record) id := by
  obtain ⟨earlier, member, reason⟩ := shown
  exact ⟨earlier, .tail _ member, reason⟩

theorem Admits.unanswered {id : UUID} {req : AdmissionRequest} {rows : Rows}
    {before after : Database} (admits : Admits id req rows before after) :
    rows.attempt.Unanswered := by
  obtain ⟨now, attempt⟩ := admits.attempt
  rw [attempt]
  exact .inl ⟨rfl, rfl⟩

theorem Explained.step {run later : System.Recorded State Event} {event : Event}
    (explained : Explained run) (valid : run.state.Valid) (responds : event.responds = true)
    (stepped : runtime.recorded.step run event = some later) : Explained later := by
  obtain ⟨taken, recorded⟩ := System.recorded_step stepped
  constructor
  · intro id rows held
    rw [recorded]
    rcases step_origin valid taken held with ⟨old, was, -⟩ | absent
    · rcases explained.attempts id old was with unanswered | shown
      · obtain ⟨now, arrived, still | evidenced | ⟨caller, actual, outcome, phase⟩⟩ :=
          step_unanswered valid taken was unanswered
        · exact .inl (arrived.unique held ▸ still)
        · exact .inr ⟨_, .head _, .inr evidenced⟩
        · exact .inr ((explained.replies caller id actual outcome phase).later _)
      · exact .inr (shown.later _)
    · obtain ⟨_, _, _, _, _, _, _, _, _, _, admits⟩ := step_new valid taken absent held
      exact .inl admits.unanswered
  · intro caller id actual outcome phase
    rw [recorded]
    rcases step_replied valid taken phase with before | ⟨reply, call, request, rfl, waits, -⟩
    · exact (explained.replies caller id actual outcome before).later _
    · refine ⟨_, .head _, .inl ⟨caller, reply, call, request, rfl, ?_, waits⟩⟩
      simpa [Event.responds] using responds

theorem explained_of_reachable {run : System.Recorded State Event}
    (reached : runtime.recorded.Reachable
      (System.onState fun _ event => event.responds = true) run) : Explained run := by
  refine reached.induction ?_ fun _ _ _ before explained responds stepped =>
    explained.step (reachable_valid before.of_recorded) responds stepped
  rintro ⟨state, record⟩ ⟨⟨manifests, -, start⟩, -⟩
  subst start
  constructor
  · intro id rows held
    cases held.attempt
  · intro caller id actual outcome phase
    cases phase

/-- In every run in which no call returns from the gateway without a response, an attempt is
acknowledged only if the gateway answered its call or owner evidence for its backend request
was processed; one that was sent and had neither is running, or its dispatch is unknown. -/
theorem acknowledgement_shown {run : System.Recorded State Event}
    (reached : runtime.recorded.Reachable
      (System.onState fun _ event => event.responds = true) run)
    {id : UUID} {attempt : ToolAttempt} (found : run.state.db.attempts.get id = some attempt) :
    (attempt.dispatchState = .acknowledged → Shown run.record id) ∧
      (attempt.backendRequestId ≠ none → ¬ Shown run.record id →
        (attempt.state = .running ∧ attempt.dispatchState = .dispatched) ∨
          (attempt.state.uncertain = true ∧ attempt.dispatchState = .unknown)) := by
  have valid := reachable_valid reached.of_recorded
  obtain ⟨rows, held, rfl⟩ := valid.formed.holds_of_attempt found
  rcases (explained_of_reachable reached).attempts id rows held with unanswered | shown
  · constructor
    · intro acknowledged
      rcases unanswered with ⟨-, other⟩ | ⟨-, other⟩ | ⟨-, other⟩ <;>
        · rw [acknowledged] at other
          cases other
    · intro sent _
      rcases unanswered with ⟨unsent, -⟩ | running | lost
      · exact absurd unsent sent
      · exact .inl running
      · exact .inr lost
  · exact ⟨fun _ => shown, fun _ not => absurd shown not⟩

/-- A search that is dispatched, with what the gateway client returns, and settled. -/
def settledCall (reply : GatewayReply) : List Event :=
  [.begin 0 (searchCall "first" "one" 0) 1, .reserve 0 0 ⟨10, 11, 0⟩, .dispatch 0 0 "backend",
    .execute 0 reply, .reconcile 0 0]

theorem recorded_reachable (guard : State → Event → Prop) (trace : List Event)
    (allowed : ∀ event ∈ trace, ∀ state, guard state event)
    (check : System.Recorded State Event → Bool)
    (accepted : (runtime.recorded.replay (fun _ _ => true) ⟨.initial [sampleChecksum], []⟩
      trace).any check = true) :
    ∃ run, runtime.recorded.Reachable (System.onState guard) run ∧ check run = true := by
  have start : runtime.recorded.initial ⟨.initial [sampleChecksum], []⟩ := ⟨sample_initial, rfl⟩
  have sound : ∀ event ∈ trace, ∀ run : System.Recorded State Event, true = true →
      System.onState guard run event := fun event member run _ => allowed event member run.state
  obtain ⟨run, -, reached, checked⟩ := System.exists_reachable sound start accepted
  exact ⟨run, reached, checked⟩

theorem acknowledgement_shown_answered :
    ∃ run, runtime.recorded.Reachable (System.onState fun _ event => event.responds = true) run ∧
      ∃ attempt, run.state.db.attempts.get 1 = some attempt ∧
        attempt.dispatchState = .acknowledged ∧ Shown run.record 1 := by
  obtain ⟨run, reached, checked⟩ := recorded_reachable (fun _ event => event.responds = true)
    (settledCall shortReply) (fun event member _ => by revert event; decide)
    (fun run => (run.state.db.attempts.get 1).any fun attempt : ToolAttempt =>
      decide (attempt.dispatchState = .acknowledged)) (by decide +kernel)
  obtain ⟨attempt, found, acknowledged⟩ := (Option.any_eq_true _ _).mp checked
  have acknowledged := of_decide_eq_true acknowledged
  exact ⟨run, reached, attempt, found, acknowledged,
    (acknowledgement_shown reached found).1 acknowledged⟩

/-- What the gateway client returns when the reply is lost: an error and no response. -/
def lostReply : GatewayReply where
  response := { status := 0, bodyLength := 0, backendRequestId := "", problem := none }
  failed := true
  projected := none

/-- A call whose reply is lost settles as acknowledged all the same. -/
theorem lostReply_acknowledged :
    ∃ run, runtime.recorded.Reachable (System.onState System.always) run ∧
      (run.state.db.attempts.get 1).map (·.dispatchState) = some .acknowledged ∧
      ¬ Shown run.record 1 := by
  obtain ⟨run, reached, checked⟩ := recorded_reachable System.always
    (settledCall lostReply) (fun _ _ _ => trivial)
    (fun run => decide ((run.state.db.attempts.get 1).map (·.dispatchState) = some .acknowledged ∧
      run.record.map (·.2) = (settledCall lostReply).reverse)) (by decide +kernel)
  obtain ⟨acknowledged, events⟩ := of_decide_eq_true checked
  refine ⟨run, reached, acknowledged, ?_⟩
  rintro ⟨taken, member, reason⟩
  have event : taken.2 ∈ (settledCall lostReply).reverse := events ▸ List.mem_map_of_mem member
  rcases reason with ⟨caller, reply, _, _, executes, answered, -⟩ |
    ⟨_, _, -, -, ⟨_, _, _, _, applies, -⟩ | ⟨_, _, _, _, _, _, _, compensates, -⟩⟩
  · rw [executes] at event
    simp only [settledCall, List.reverse_cons, List.reverse_nil, List.nil_append, List.cons_append,
      List.mem_cons, List.not_mem_nil, reduceCtorEq, false_or, or_false,
      Event.execute.injEq] at event
    rw [event.2] at answered
    cases answered
  · rw [applies] at event
    simp [settledCall] at event
  · rw [compensates] at event
    simp [settledCall] at event

end OufMcp.Ledger
