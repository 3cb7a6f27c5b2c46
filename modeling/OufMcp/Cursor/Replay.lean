import OufMcp.Cursor.ComposerRun

/-!
# Calls on one token agree

Nothing of a page is cached: every call reads the owners again and merges anew.
What is committed first is the only page any call returns for its token, and a
call that composed something else fails and leaves the nodes alone.
-/

namespace OufMcp.Cursor

open Ledger (UUID Time)
open Relational Transition Interaction

variable {codec : Codec}

/-! ## What a call holds -/

/-- The owner pages of a call are those its frame points to. -/
structure Work.Sound (work : Work codec) : Prop where
  on : ∀ position ∈ work.node.frame.owners, position.On (work.pages position.name)
  covered : ∀ position ∈ work.node.frame.owners,
    checkCoverage work.node.frame position.name (work.pages position.name) = .ok ()

structure Draft.Sound (draft : Draft codec) : Prop extends draft.toWork.Sound where
  composed : (compose draft.node.frame draft.pages).run draft.answer = .ok draft.composed

/-- A page that was sealed, with a bookmark exactly when it ends a publication chain. -/
def Draft.Sealed (draft : Draft codec) (page : CursorPage) (continuation : Option CursorFrame) :
    Prop :=
  ∃ bookmark : Option UUID, bookmark.isSome = draft.composed.final ∧
    sealPage codec draft.composed draft.node bookmark = .ok (page, continuation)

def Phase.Sound : Phase codec → Prop
  | .holding work => work.Sound
  | .composed draft => draft.Sound
  | .ready draft page continuation => draft.Sound ∧ draft.Sealed page continuation
  | _ => True

def Phase.node? : Phase codec → Option CursorNode
  | .loaded _ _ node => some node
  | .holding work => some work.node
  | .composed draft => some draft.node
  | .ready draft _ _ => some draft.node
  | _ => none

def Phase.response? : Phase codec → Option (CursorPage × Option UUID)
  | .returned (.ok body) => some body
  | _ => none

/-- The pages read back are those of the owners, and the others are left alone. -/
theorem readBackOwners_sound {frame : CursorFrame} {owners : List OwnerPosition}
    {pages result : Producer → CursorOwnerPage codec} {answer : OwnerRead → OwnerReply}
    (ran : (readBackOwners frame owners pages).run answer = .ok result)
    (names : (owners.map (·.name)).Nodup) :
    (∀ position ∈ owners, position.On (result position.name) ∧
      checkCoverage frame position.name (result position.name) = .ok () ∧
      (readBackOwner frame position).run answer = .ok (result position.name)) ∧
    ∀ name, name ∉ owners.map (·.name) → result name = pages name := by
  induction owners generalizing pages with
  | nil =>
    cases ran
    exact ⟨by simp, fun _ _ => rfl⟩
  | cons position rest ih =>
    obtain ⟨page, read, after⟩ := (Dialogue.run_bind_eq_ok answer).mp ran
    rw [List.map_cons, List.nodup_cons] at names
    obtain ⟨inner, outer⟩ := ih after names.2
    have here : result position.name = page := by
      rw [outer _ names.1, Function.update_self]
    constructor
    · intro other member
      rcases List.mem_cons.mp member with rfl | later
      · have whole := read
        simp only [readBackOwner, Dialogue.run_bind_eq_ok] at read
        obtain ⟨_, -, _, covered, _, same, done⟩ := read
        cases done
        refine ⟨?_, here ▸ covered, here ▸ whole⟩
        exact here ▸ sameOwnerPage_eq_true.mp (ensure_eq_ok.mp same)
      · exact inner other later
    · intro name absent
      rw [List.map_cons, List.mem_cons, not_or] at absent
      rw [outer name absent.2, Function.update_of_ne absent.1]

theorem readBack_eq_ok {frame : CursorFrame} {self : Option SelfReply}
    {pages : Producer → CursorOwnerPage codec} {answer : OwnerRead → OwnerReply}
    (ran : (readBack codec frame self).run answer = .ok pages)
    (names : (frame.owners.map (·.name)).Nodup) :
    ∀ position ∈ frame.owners, position.On (pages position.name) ∧
      checkCoverage frame position.name (pages position.name) = .ok () ∧
      (readBackOwner frame position).run answer = .ok (pages position.name) := by
  simp only [readBack, Dialogue.run_bind_eq_ok] at ran
  obtain ⟨_, read, _, -, _, -, done⟩ := ran
  cases done
  exact (readBackOwners_sound read names).1

theorem capture_eq_ok {blank captured : CursorFrame} {self : Option SelfReply}
    {pages : Producer → CursorOwnerPage codec} {answer : OwnerRead → OwnerReply}
    (ran : (capture codec blank self).run answer = .ok (captured, pages)) :
    validateCursorFrame codec captured = .ok () ∧ ∃ status gateway ingestion,
      captured = blank.captured status gateway ingestion ∧ pages = bothPages gateway ingestion ∧
      currentSelf self = .ok status ∧
      (captureOwner blank .gateway).run answer = .ok gateway ∧
      (captureOwner blank .ingestion).run answer = .ok ingestion := by
  simp only [capture, Dialogue.run_bind_eq_ok] at ran
  obtain ⟨gateway, first, ingestion, second, status, reported, _, valid, done⟩ := ran
  cases done
  exact ⟨valid, status, gateway, ingestion, rfl, rfl, reported, first, second⟩

theorem captureOwner_covered {blank : CursorFrame} {name : Producer}
    {page : CursorOwnerPage codec} {answer : OwnerRead → OwnerReply}
    (ran : (captureOwner blank name).run answer = .ok page) :
    checkCoverage blank name page = .ok () := by
  simp only [captureOwner, Dialogue.run_bind_eq_ok] at ran
  obtain ⟨_, -, _, covered, done⟩ := ran
  cases done
  exact covered

theorem capture_sound {blank captured : CursorFrame} {self : Option SelfReply}
    {pages : Producer → CursorOwnerPage codec} {answer : OwnerRead → OwnerReply}
    {caller : Caller} {binding : CursorBinding} {node : CursorNode}
    (ran : (capture codec blank self).run answer = .ok (captured, pages))
    (here : node.frame = captured) : (⟨caller, binding, node, pages⟩ : Work codec).Sound := by
  obtain ⟨-, status, gateway, ingestion, rfl, rfl, -, first, second⟩ := capture_eq_ok ran
  constructor
  · rw [here]
    intro position member
    rcases List.mem_pair.mp member with rfl | rfl
    · exact gateway.position_on .gateway 0
    · exact ingestion.position_on .ingestion 0
  · rw [here]
    intro position member
    rcases List.mem_pair.mp member with rfl | rfl
    · exact captureOwner_covered first
    · exact captureOwner_covered second

theorem Draft.Sealed.spec {draft : Draft codec} {page : CursorPage}
    {continuation : Option CursorFrame} (done : draft.Sealed page continuation) :
    (∃ bookmark : Option UUID, bookmark.isSome = draft.composed.final ∧
      page = draft.composed.page draft.node bookmark) ∧
    continuation = if draft.composed.more = true then some { draft.composed.frame with
      pageNumber := draft.composed.frame.pageNumber + 1 } else none := by
  obtain ⟨bookmark, certified, done⟩ := done
  simp only [sealPage, Composition.next, bind_eq_ok, pure_eq_ok, Prod.mk.injEq] at done
  obtain ⟨_, -, next, made, rfl, rfl⟩ := done
  refine ⟨⟨bookmark, certified, rfl⟩, ?_⟩
  split at made
  next more =>
    simp only [bind_eq_ok, pure_eq_ok] at made
    obtain ⟨_, -, same⟩ := made
    rw [if_pos more, same]
  next last =>
    cases made
    rw [if_neg last]

/-- The frame of the next page is the one the merge left, with the next number. -/
theorem Draft.Sealed.continuation_eq {draft : Draft codec} {page : CursorPage}
    {frame : CursorFrame} (done : draft.Sealed page (some frame)) :
    draft.composed.more = true ∧
      frame = { draft.composed.frame with pageNumber := draft.composed.frame.pageNumber + 1 } := by
  have same := done.spec.2
  split at same
  next more => exact ⟨more, Option.some.inj same⟩
  next => cases same

theorem Draft.Sealed.pageNumber {draft : Draft codec} {page : CursorPage} {frame : CursorFrame}
    (sound : draft.Sound) (names : (draft.node.frame.owners.map (·.name)).Nodup)
    (done : draft.Sealed page (some frame)) :
    frame.pageNumber = draft.node.frame.pageNumber + 1 := by
  rw [done.continuation_eq.2]
  exact congrArg (· + 1) (compose_alike sound.composed names).pageNumber

/-! ## What is kept across calls -/

namespace Delivery

structure Sound (delivery : Delivery codec) : Prop where
  draft : delivery.toDraft.Sound
  page : delivery.Sealed delivery.page delivery.continuation

/-- The delivery ends its chain, or its continuation is a node that was created. -/
def Linked (delivery : Delivery codec) (created : List CursorNode) : Prop :=
  (delivery.continuation = none ∧ delivery.next = none) ∨
    ∃ frame token, delivery.continuation = some frame ∧ delivery.next = some token ∧
      ⟨token, delivery.node.session, frame, delivery.node.expiresAt⟩ ∈ created

theorem Linked.mono {delivery : Delivery codec} {created more : List CursorNode}
    (linked : delivery.Linked created) (subset : created ⊆ more) : delivery.Linked more := by
  rcases linked with ended | ⟨frame, token, continued, next, member⟩
  · exact .inl ended
  · exact .inr ⟨frame, token, continued, next, subset member⟩

end Delivery

namespace Composers

structure Kept (state : Composers codec) : Prop where
  recorded : ∀ token row, state.stored.store.nodes.get token = some row →
    row.pageNumber = row.metadata.pageNumber ∧
      ∃ held, state.stored.store.sessions.get row.session = some held ∧
        ⟨token, row.session, row.metadata, held.expiresAt⟩ ∈ state.created
  issued : ∀ node ∈ state.created, node.token ∈ state.stored.issued ∧
    node.session ∈ state.stored.issued
  distinct : ∀ a ∈ state.created, ∀ b ∈ state.created, a.token = b.token → a = b
  numbered : ∀ a ∈ state.created, ∀ b ∈ state.created, a.session = b.session →
    a.frame.pageNumber = b.frame.pageNumber → a = b
  valid : ∀ node ∈ state.created, validateCursorFrame codec node.frame = .ok ()
  phases : ∀ call, (state.calls call).Sound
  held : ∀ call node, (state.calls call).node? = some node → node ∈ state.created
  delivered : ∀ delivery ∈ state.log, delivery.Sound ∧ delivery.node ∈ state.created ∧
    delivery.Linked state.created
  stored : ∀ delivery ∈ state.log, ∀ row,
    state.stored.store.nodes.get delivery.node.token = some row →
      row.pageDigest = some (.of delivery.page) ∧ row.nextToken = delivery.next
  agreed : ∀ first ∈ state.log, ∀ second ∈ state.log, first.node.token = second.node.token →
    first.page = second.page ∧ first.next = second.next
  preceded : ∀ node ∈ state.created, node.frame.pageNumber = 0 ∨
    ∃ delivery ∈ state.log, delivery.next = some node.token

variable {state next : Composers codec} {event : ComposerEvent}

theorem Transacts.issued {stored : StoreState codec} (transacts : state.Transacts stored)
    {id : UUID} (member : id ∈ state.stored.issued) : id ∈ stored.issued := by
  rcases transacts with rfl | ⟨event, stepped⟩
  · exact member
  · rw [(StoreState.step_moves stepped).2.2.1]
    exact List.mem_append_right _ member

theorem forall_calls {P : Phase codec → Prop} {call : Nat} {phase : Phase codec}
    (calls : next.calls = Function.update state.calls call phase) (here : P phase)
    (others : ∀ other, P (state.calls other)) (other : Nat) : P (next.calls other) := by
  rw [calls]
  by_cases same : other = call
  · subst same
    rwa [Function.update_self]
  · rw [Function.update_of_ne same]
    exact others other

theorem Kept.enters (kept : state.Kept) {phase : Phase codec}
    (enters : state.Enters event next phase) (sound : phase.Sound)
    (member : ∀ node, phase.node? = some node → node ∈ state.created) : next.Kept := by
  have nodes := enters.stored.nodes
  have sessions := enters.stored.sessions
  have created := enters.created
  have log := enters.log
  constructor
  case recorded =>
    rw [nodes, sessions, created]
    exact kept.recorded
  case issued =>
    rw [created]
    intro node old
    obtain ⟨token, session⟩ := kept.issued node old
    exact ⟨enters.stored.transacts.issued token, enters.stored.transacts.issued session⟩
  case distinct => exact created ▸ kept.distinct
  case numbered => exact created ▸ kept.numbered
  case valid => exact created ▸ kept.valid
  case phases => exact forall_calls enters.calls sound kept.phases
  case held =>
    rw [created]
    exact forall_calls (P := fun phase => ∀ node, phase.node? = some node → node ∈ state.created)
      enters.calls member kept.held
  case delivered =>
    rw [created, log]
    exact kept.delivered
  case stored =>
    rw [nodes, log]
    exact kept.stored
  case agreed => exact log ▸ kept.agreed
  case preceded =>
    rw [created, log]
    exact kept.preceded

theorem Kept.recorded_old (kept : state.Kept) {stored : StoreState codec} {storeEvent : StoreEvent}
    (stepped : state.stored.step storeEvent = some stored) (sound : stored.Sound)
    {token : UUID} {row : CursorNodeRow} (found : stored.store.nodes.get token = some row)
    (old : token ∉ storeEvent.drawn) :
    row.pageNumber = row.metadata.pageNumber ∧
      ∃ held, stored.store.sessions.get row.session = some held ∧
        ⟨token, row.session, row.metadata, held.expiresAt⟩ ∈ state.created := by
  obtain ⟨moves, -, -, fresh⟩ := StoreState.step_moves stepped
  rcases moves.retains.nodeFrom token row found with drawn | ⟨before, present, keeps⟩
  · exact absurd drawn old
  obtain ⟨number, held, session, member⟩ := kept.recorded token before present
  refine ⟨by rw [keeps.pageNumber, keeps.metadata, number], held, ?_, ?_⟩
  · obtain ⟨now, there⟩ := sound.chained.owned token row found
    rw [keeps.session] at there ⊢
    rcases moves.retains.sessionFrom _ now there with drawn | same
    · exact absurd (kept.issued _ member).2 (fresh _ drawn)
    · rw [there, same.symm.trans session]
  · rw [keeps.session, keeps.metadata]
    exact member

theorem Kept.stored_old (kept : state.Kept) {stored : StoreState codec} {storeEvent : StoreEvent}
    (stepped : state.stored.step storeEvent = some stored) {delivery : Delivery codec}
    (member : delivery ∈ state.log) {row : CursorNodeRow}
    (found : stored.store.nodes.get delivery.node.token = some row) :
    row.pageDigest = some (.of delivery.page) ∧ row.nextToken = delivery.next := by
  obtain ⟨moves, -, -, fresh⟩ := StoreState.step_moves stepped
  have drawn := (kept.issued _ (kept.delivered delivery member).2.1).1
  rcases moves.retains.nodeFrom _ row found with new | ⟨before, present, keeps⟩
  · exact absurd drawn (fresh _ new)
  · obtain ⟨digest, next⟩ := kept.stored delivery member before present
    obtain rfl := keeps.committed (by simp [digest])
    exact ⟨digest, next⟩

theorem Kept.opens (kept : state.Kept) (sound : next.stored.Sound) {work : Work codec}
    {blank : CursorFrame} {answer : OwnerRead → OwnerReply} {own : Option SelfReply}
    {fresh : CreateInputs} (opens : state.Opens event next work blank answer own fresh) :
    next.Kept := by
  have ⟨newToken, newSession⟩ := opens.unused
  obtain ⟨-, -, ran, done, stepped, calls, created, log, -⟩ := opens
  obtain ⟨made, swept, expired, opened⟩ := Store.createIncidentCursor_eq_ok done
  obtain ⟨-, -, issued, unused⟩ := StoreState.step_moves stepped
  have token : work.node.token = fresh.token := congrArg CursorNode.token made
  have session : work.node.session = fresh.session := congrArg CursorNode.session made
  have wider {id : UUID} (member : id ∈ state.stored.issued) : id ∈ next.stored.issued :=
    issued ▸ List.mem_append_right _ member
  constructor
  case recorded =>
    intro key row found
    rw [created]
    by_cases here : key = work.node.token
    · subst here
      have same := opened.nodes.get_self.symm.trans found
      cases same
      exact ⟨opened.first.symm, _, opened.sessions.get_self, List.mem_cons_self⟩
    · have before : state.stored.store.nodes.get key = some row := by
        have there := (opened.nodes.get_of_ne here).symm.trans found
        rcases Store.expireSession_eq_ok expired with rfl | ⟨_, -, gone⟩
        · exact there
        · exact (gone.get_nodes.mp there).1
      obtain ⟨-, _, -, member⟩ := kept.recorded key row before
      obtain ⟨number, held, present, still⟩ := kept.recorded_old stepped sound found
        fun drawn => unused key drawn (kept.issued _ member).1
      exact ⟨number, held, present, List.mem_cons_of_mem _ still⟩
  case issued =>
    rw [created]
    intro other member
    rcases List.mem_cons.mp member with rfl | old
    · rw [issued, token, session]
      simp [StoreEvent.drawn]
    · exact ⟨wider (kept.issued other old).1, wider (kept.issued other old).2⟩
  case distinct =>
    rw [created]
    intro a memberA b memberB same
    rcases List.mem_cons.mp memberA with rfl | oldA <;>
      rcases List.mem_cons.mp memberB with rfl | oldB
    · rfl
    · exact absurd (same ▸ (kept.issued b oldB).1) newToken
    · exact absurd (same ▸ (kept.issued a oldA).1) newToken
    · exact kept.distinct a oldA b oldB same
  case numbered =>
    rw [created]
    intro a memberA b memberB same number
    rcases List.mem_cons.mp memberA with rfl | oldA <;>
      rcases List.mem_cons.mp memberB with rfl | oldB
    · rfl
    · exact absurd (same ▸ (kept.issued b oldB).2) newSession
    · exact absurd (same ▸ (kept.issued a oldA).2) newSession
    · exact kept.numbered a oldA b oldB same number
  case valid =>
    rw [created]
    intro other member
    rcases List.mem_cons.mp member with rfl | old
    · exact opened.valid
    · exact kept.valid other old
  case phases => exact forall_calls calls (capture_sound ran rfl) kept.phases
  case held =>
    rw [created]
    refine forall_calls (P := fun phase => ∀ held, phase.node? = some held →
      held ∈ work.node :: state.created) calls ?_ ?_
    · rintro _ ⟨⟩
      exact List.mem_cons_self
    · exact fun other held found => List.mem_cons_of_mem _ (kept.held other held found)
  case delivered =>
    rw [created, log]
    intro delivery member
    obtain ⟨whole, old, linked⟩ := kept.delivered delivery member
    exact ⟨whole, List.mem_cons_of_mem _ old, linked.mono (List.subset_cons_self _ _)⟩
  case stored =>
    rw [log]
    exact fun delivery member row found => kept.stored_old stepped member found
  case agreed => exact log ▸ kept.agreed
  case preceded =>
    rw [created, log]
    intro other member
    rcases List.mem_cons.mp member with rfl | old
    · exact .inl opened.first
    · exact kept.preceded other old

theorem Kept.node_eq (kept : state.Kept) {node : CursorNode} (member : node ∈ state.created)
    {row : CursorNodeRow} (found : state.stored.store.nodes.get node.token = some row) :
    ∃ held, state.stored.store.sessions.get row.session = some held ∧
      node = ⟨node.token, row.session, row.metadata, held.expiresAt⟩ := by
  obtain ⟨-, held, session, recorded⟩ := kept.recorded _ row found
  exact ⟨held, session, kept.distinct _ member _ recorded rfl⟩

/-- A page that is ready to be committed was composed and sealed for a node that was created. -/
theorem Kept.ready (kept : state.Kept) {call : Nat} {draft : Draft codec} {page : CursorPage}
    {continuation : Option CursorFrame}
    (before : state.calls call = .ready draft page continuation) :
    draft.node ∈ state.created ∧ (draft.node.frame.owners.map (·.name)).Nodup ∧ draft.Sound ∧
      draft.Sealed page continuation := by
  have member := kept.held call draft.node (before ▸ rfl)
  have phase := kept.phases call
  rw [before] at phase
  exact ⟨member, validateCursorFrame_names (kept.valid _ member), phase.1, phase.2⟩

/-- What a commit found, wrote and created. -/
structure Committed (state next : Composers codec) (node : CursorNode) (page : CursorPage)
    (continuation : Option CursorFrame) (result : Option UUID) (created : List CursorNode) :
    Prop where
  before : ∃ row, state.stored.store.nodes.get node.token = some row ∧
    (row.pageDigest = none ∨
      row.pageDigest = some (.of page) ∧ row.nextToken = result ∧ created = [])
  after : ∃ row, next.stored.store.nodes.get node.token = some row ∧
    row.pageDigest = some (.of page) ∧ row.nextToken = result
  origin : ∀ key row, next.stored.store.nodes.get key = some row →
    (∃ new ∈ created, new.token = key) ∨ ∃ old, state.stored.store.nodes.get key = some old
  single : ∀ a ∈ created, ∀ b ∈ created, a = b
  linked : (continuation = none ∧ result = none) ∨ ∃ frame token, continuation = some frame ∧
    result = some token ∧
      ⟨token, node.session, frame, node.expiresAt⟩ ∈ created ++ state.created
  opened : ∀ new ∈ created, result = some new.token ∧ continuation = some new.frame ∧
    new.session = node.session ∧ new.token ∉ state.stored.issued ∧
    validateCursorFrame codec new.frame = .ok () ∧
    ∃ held, next.stored.store.nodes.get new.token =
        some ⟨node.session, new.frame.pageNumber, new.frame, none, none⟩ ∧
      next.stored.store.sessions.get node.session = some held ∧ new.expiresAt = held.expiresAt

theorem Kept.committed (kept : state.Kept) (sound : state.stored.Sound) {call : Nat}
    {delivery : Delivery codec} {locked : Bool} {committedAt : Time} {candidate : UUID}
    (commits : state.Commits next call delivery locked committedAt candidate) :
    state.Committed next delivery.node delivery.page delivery.continuation delivery.next
      (opened delivery.node candidate delivery.continuation delivery.next) := by
  have member := (kept.ready commits.before).1
  have fresh := commits.unused
  have done := commits.done
  generalize delivery.node = node at member done ⊢
  generalize delivery.page = page at done ⊢
  generalize delivery.continuation = continuation at done ⊢
  generalize delivery.next = result at done ⊢
  obtain ⟨row, session, found, -, commits⟩ := Store.commitIncidentCursorPage_eq_ok done
  obtain ⟨present, held, -⟩ := Store.findNode_eq_some.mp found
  obtain ⟨also, there, same⟩ := kept.node_eq member present
  obtain rfl := Option.some.inj (held.symm.trans there)
  have sessionEq : node.session = row.session := congrArg CursorNode.session same
  have expiryEq : node.expiresAt = session.expiresAt := congrArg CursorNode.expiresAt same
  generalize stored : next.stored.store = after at commits
  cases commits with
  | same committed last =>
    refine ⟨⟨row, present, .inr ⟨committed, last, rfl⟩⟩, ⟨row, ?_, committed, last⟩,
      fun _ old found => .inr ⟨old, ?_⟩, ?_, .inl ⟨rfl, rfl⟩, ?_⟩
    · rw [stored, present]
    · rwa [← stored]
    · intro _ impossible
      cases impossible
    · intro new impossible
      cases impossible
  | @again frame token retained committed link target agrees =>
    have other : token ≠ candidate := by
      rintro rfl
      exact fresh (sound.nodes token retained target)
    have none : opened node candidate (some frame) (some token) = [] := if_neg other
    obtain ⟨-, held', recorded, created⟩ := kept.recorded token retained target
    obtain ⟨-, following, again, sameSession, -⟩ :=
      sound.chained.linked node.token row token present link
    obtain rfl := Option.some.inj (target.symm.trans again)
    rw [sameSession] at recorded created
    obtain rfl := Option.some.inj (recorded.symm.trans held)
    rw [none]
    refine ⟨⟨row, present, .inr ⟨committed, link, rfl⟩⟩, ⟨row, ?_, committed, link⟩,
      fun _ old found => .inr ⟨old, ?_⟩, ?_, .inr ⟨frame, token, rfl, rfl, ?_⟩, ?_⟩
    · rw [stored, present]
    · rwa [← stored]
    · intro _ impossible
      cases impossible
    · rw [sessionEq, expiryEq, ← agrees]
      exact created
    · intro new impossible
      cases impossible
  | @closes nodes pending put =>
    have last := sound.chained.nextToken_of_pending present pending
    rw [last]
    refine ⟨⟨row, present, .inl pending⟩,
      ⟨{ row with pageDigest := some (.of page) }, ?_, rfl, last⟩, fun key old found => .inr ?_,
      ?_, .inl ⟨rfl, rfl⟩, ?_⟩
    · rw [stored]
      exact put.get_self
    · by_cases here : key = node.token
      · exact ⟨row, here ▸ present⟩
      · rw [stored] at found
        exact ⟨old, (put.get_of_ne here).symm.trans found⟩
    · intro _ impossible
      cases impossible
    · intro new impossible
      cases impossible
  | @continued frame inserted nodes pending valid number scope room newNode insert put =>
    have one : opened node candidate (some frame) (some candidate) =
        [⟨candidate, node.session, frame, node.expiresAt⟩] := if_pos rfl
    have apart : candidate ≠ node.token := by
      rintro rfl
      cases newNode.symm.trans present
    rw [one]
    refine ⟨⟨row, present, .inl pending⟩,
      ⟨{ row with pageDigest := some (.of page), nextToken := some candidate }, ?_, rfl, rfl⟩,
      fun key old found => ?_, ?_, .inr ⟨frame, candidate, rfl, rfl, by simp⟩, ?_⟩
    · rw [stored]
      exact put.get_self
    · rw [stored] at found
      rcases Store.get_extended insert put found with ⟨rfl, -⟩ | ⟨-, rfl, -⟩ | ⟨-, -, before⟩
      · exact .inr ⟨row, present⟩
      · exact .inl ⟨_, List.mem_singleton.mpr rfl, rfl⟩
      · exact .inr ⟨old, before⟩
    · intro a first b second
      rw [List.mem_singleton.mp first, List.mem_singleton.mp second]
    · intro new created
      obtain rfl := List.mem_singleton.mp created
      refine ⟨rfl, rfl, rfl, fresh, valid, session, ?_, ?_, expiryEq⟩
      · rw [stored, sessionEq]
        exact (put.get_of_ne apart).trans insert.get_self
      · rw [stored, sessionEq]
        exact held

theorem Kept.continues (kept : state.Kept) {delivery : Delivery codec}
    (logged : delivery ∈ state.log) {node : CursorNode} (member : node ∈ state.created)
    (leads : delivery.next = some node.token) :
    delivery.continuation = some node.frame ∧ delivery.node.session = node.session := by
  rcases (kept.delivered delivery logged).2.2 with
    ⟨-, ended⟩ | ⟨frame, token, continued, next, made⟩
  · cases ended.symm.trans leads
  obtain rfl := Option.some.inj (leads.symm.trans next)
  have same := kept.distinct _ made _ member rfl
  have frameEq : frame = node.frame := congrArg CursorNode.frame same
  have sessionEq := congrArg CursorNode.session same
  exact ⟨frameEq ▸ continued, sessionEq⟩

theorem Kept.predecessor (kept : state.Kept) {node : CursorNode} (member : node ∈ state.created)
    (later : node.frame.pageNumber ≠ 0) :
    ∃ delivery ∈ state.log, delivery.next = some node.token ∧
      delivery.continuation = some node.frame ∧ delivery.node.session = node.session ∧
      node.frame.pageNumber = delivery.node.frame.pageNumber + 1 := by
  rcases kept.preceded node member with first | ⟨delivery, logged, leads⟩
  · exact absurd first later
  obtain ⟨sound, there, -⟩ := kept.delivered delivery logged
  obtain ⟨continued, session⟩ := kept.continues logged member leads
  have names := validateCursorFrame_names (kept.valid _ there)
  exact ⟨delivery, logged, leads, continued, session,
    (continued ▸ sound.page).pageNumber sound.draft names⟩

theorem Kept.commits (kept : state.Kept) (sound : state.stored.Sound)
    (soundNext : next.stored.Sound) {call : Nat} {last : Delivery codec} {locked : Bool}
    {committedAt : Time} {candidate : UUID}
    (commits : state.Commits next call last locked committedAt candidate) : next.Kept := by
  have committed := kept.committed sound commits
  obtain ⟨before, -, stepped, calls, created, log, -⟩ := commits
  obtain ⟨-, -, issued, unused⟩ := StoreState.step_moves stepped
  obtain ⟨member, names, phase⟩ := kept.ready before
  have wider {id : UUID} (old : id ∈ state.stored.issued) : id ∈ next.stored.issued :=
    issued ▸ List.mem_append_right _ old
  have number {frame : CursorFrame} (same : last.continuation = some frame) :
      frame.pageNumber = last.node.frame.pageNumber + 1 :=
    (same ▸ phase.2).pageNumber phase.1 names
  generalize opened last.node candidate last.continuation last.next = new at committed created
  constructor
  case recorded =>
    intro key row found
    rw [created]
    rcases committed.origin key row found with ⟨node, made, rfl⟩ | ⟨old, there⟩
    · obtain ⟨-, -, session, -, -, held, row', present, expiry⟩ := committed.opened node made
      obtain rfl := Option.some.inj (found.symm.trans row')
      refine ⟨rfl, held, present, List.mem_append_left _ ?_⟩
      rw [← expiry, ← session]
      exact made
    · obtain ⟨-, _, -, known⟩ := kept.recorded key old there
      obtain ⟨count, held, present, still⟩ := kept.recorded_old stepped soundNext found
        fun drawn => unused key drawn (kept.issued _ known).1
      exact ⟨count, held, present, List.mem_append_right _ still⟩
  case issued =>
    rw [created]
    intro node present
    rcases List.mem_append.mp present with made | old
    · obtain ⟨-, -, session, -, -, held, there, -⟩ := committed.opened node made
      exact ⟨soundNext.nodes _ _ there, session ▸ wider (kept.issued _ member).2⟩
    · exact ⟨wider (kept.issued node old).1, wider (kept.issued node old).2⟩
  case distinct =>
    rw [created]
    intro a memberA b memberB same
    rcases List.mem_append.mp memberA with madeA | oldA <;>
      rcases List.mem_append.mp memberB with madeB | oldB
    · exact committed.single a madeA b madeB
    · exact absurd (same ▸ (kept.issued b oldB).1) (committed.opened a madeA).2.2.2.1
    · exact absurd (same ▸ (kept.issued a oldA).1) (committed.opened b madeB).2.2.2.1
    · exact kept.distinct a oldA b oldB same
  case numbered =>
    rw [created]
    intro a memberA b memberB same count
    -- A node with the number of the new one would continue the page that is committed only now.
    have absent {made old : CursorNode} (isNew : made ∈ new) (isOld : old ∈ state.created)
        (sessions : old.session = made.session)
        (numbers : old.frame.pageNumber = made.frame.pageNumber) : False := by
      obtain ⟨-, continued, session, -⟩ := committed.opened made isNew
      have successor := numbers.trans (number continued)
      obtain ⟨delivery, logged, -, -, also, follows⟩ := kept.predecessor isOld (by omega)
      have same : delivery.node = last.node :=
        kept.numbered _ (kept.delivered delivery logged).2.1 _ member
          (also.trans (sessions.trans session)) (by omega)
      obtain ⟨row, found, pending | ⟨-, -, none⟩⟩ := committed.before
      · have digest := (kept.stored delivery logged row (same ▸ found)).1
        cases pending.symm.trans digest
      · rw [none] at isNew
        cases isNew
    rcases List.mem_append.mp memberA with madeA | oldA <;>
      rcases List.mem_append.mp memberB with madeB | oldB
    · exact committed.single a madeA b madeB
    · exact (absent madeA oldB same.symm count.symm).elim
    · exact (absent madeB oldA same count).elim
    · exact kept.numbered a oldA b oldB same count
  case valid =>
    rw [created]
    intro node present
    rcases List.mem_append.mp present with made | old
    · exact (committed.opened node made).2.2.2.2.1
    · exact kept.valid node old
  case phases => exact forall_calls calls trivial kept.phases
  case held =>
    rw [created]
    refine forall_calls (P := fun phase => ∀ held, phase.node? = some held →
      held ∈ new ++ state.created) calls ?_ ?_
    · rintro _ ⟨⟩
    · exact fun other held found => List.mem_append_right _ (kept.held other held found)
  case delivered =>
    rw [created, log]
    intro delivery logged
    rcases List.mem_cons.mp logged with rfl | old
    · exact ⟨⟨phase.1, phase.2⟩, List.mem_append_right _ member, committed.linked⟩
    · obtain ⟨whole, there, linked⟩ := kept.delivered delivery old
      exact ⟨whole, List.mem_append_right _ there, linked.mono (List.subset_append_right _ _)⟩
  case stored =>
    rw [log]
    intro delivery logged row found
    rcases List.mem_cons.mp logged with rfl | old
    · obtain ⟨written, there, digest, token⟩ := committed.after
      obtain rfl := Option.some.inj (found.symm.trans there)
      exact ⟨digest, token⟩
    · exact kept.stored_old stepped old found
  case agreed =>
    rw [log]
    obtain ⟨row, found, either⟩ := committed.before
    have same {delivery : Delivery codec} (old : delivery ∈ state.log)
        (token : delivery.node.token = last.node.token) :
        delivery.page = last.page ∧ delivery.next = last.next := by
      obtain ⟨digest, link⟩ := kept.stored delivery old row (token ▸ found)
      rcases either with pending | ⟨also, next, -⟩
      · cases pending.symm.trans digest
      · have page := PageDigest.of.inj (Option.some.inj (digest.symm.trans also))
        exact ⟨page, link.symm.trans next⟩
    intro first memberA second memberB token
    rcases List.mem_cons.mp memberA with rfl | oldA <;>
      rcases List.mem_cons.mp memberB with rfl | oldB
    · exact ⟨rfl, rfl⟩
    · exact ⟨(same oldB token.symm).1.symm, (same oldB token.symm).2.symm⟩
    · exact same oldA token
    · exact kept.agreed first oldA second oldB token
  case preceded =>
    rw [created, log]
    intro node present
    rcases List.mem_append.mp present with made | old
    · exact .inr ⟨_, List.mem_cons_self, (committed.opened node made).1⟩
    · rcases kept.preceded node old with first | ⟨delivery, logged, leads⟩
      · exact .inl first
      · exact .inr ⟨delivery, List.mem_cons_of_mem _ logged, leads⟩

theorem Kept.step (kept : state.Kept) (sound : state.stored.Sound)
    (soundNext : next.stored.Sound) (outcome : state.Outcome event next) : next.Kept := by
  -- A phase that names no node and holds no pages.
  have plain {phase : Phase codec} (enters : state.Enters event next phase)
      (sound : phase.Sound) (none : phase.node? = none) : next.Kept :=
    kept.enters enters sound fun node found => by
      rw [none] at found
      cases found
  cases outcome with
  | fails enters => exact plain enters trivial rfl
  | resumes _ _ _ enters => exact plain enters trivial rfl
  | loads _ _ loaded enters =>
    refine kept.enters enters trivial ?_
    rintro _ ⟨⟩
    obtain ⟨row, held, found, session, -, -, same⟩ := Store.loadIncidentCursor_eq_ok loaded
    obtain ⟨-, also, there, member⟩ := kept.recorded _ row found
    obtain rfl := Option.some.inj (session.symm.trans there)
    exact same ▸ member
  | @readsBack call _ _ node _ _ _ _ before ran enters =>
    have member : node ∈ state.created := kept.held call node (before ▸ rfl)
    have read := readBack_eq_ok ran (validateCursorFrame_names (kept.valid node member))
    refine kept.enters enters ⟨fun position there => (read position there).1,
      fun position there => (read position there).2.1⟩ ?_
    rintro _ ⟨⟩
    exact member
  | @composes call work _ _ _ before ran enters =>
    have phase := kept.phases call
    rw [before] at phase
    refine kept.enters enters ⟨phase, ran⟩ ?_
    rintro _ ⟨⟩
    exact kept.held call work.node (before ▸ rfl)
  | @seals call _ _ _ _ draft _ _ bookmark _ before certified _ done enters =>
    have phase := kept.phases call
    rw [before] at phase
    refine kept.enters enters ⟨phase, bookmark, certified, done⟩ ?_
    rintro _ ⟨⟩
    exact kept.held call draft.node (before ▸ rfl)
  | opens opens => exact kept.opens soundNext opens
  | commits commits => exact kept.commits sound soundNext commits

theorem kept_of_reachable {guard : Composers codec → ComposerEvent → Prop}
    (reached : (composerSystem codec).Reachable guard state) : state.Kept := by
  refine reached.induction ?_ fun source event target before kept allowed stepped => ?_
  · rintro _ ⟨now, rfl⟩
    constructor
    case recorded =>
      intro _ _ found
      cases found
    case issued =>
      intro _ member
      cases member
    case distinct =>
      intro _ member
      cases member
    case numbered =>
      intro _ member
      cases member
    case valid =>
      intro _ member
      cases member
    case phases => exact fun _ => trivial
    case held =>
      intro _ _ found
      cases found
    case delivered =>
      intro _ member
      cases member
    case stored =>
      intro _ member
      cases member
    case agreed =>
      intro _ member
      cases member
    case preceded =>
      intro _ member
      cases member
  · have later := before.step allowed stepped
    exact kept.step (StoreState.sound_of_reachable (reachable_stored before))
      (StoreState.sound_of_reachable (reachable_stored later)) (step_outcome stepped)

/-! ## Responses -/

theorem response_delivered {guard : Composers codec → ComposerEvent → Prop}
    (reached : (composerSystem codec).Reachable guard state) {call : Nat}
    {body : CursorPage × Option UUID} (returned : (state.calls call).response? = some body) :
    ∃ delivery ∈ state.log, (delivery.page, delivery.next) = body := by
  refine reached.induction (P := fun state => ∀ call body,
    (state.calls call).response? = some body →
      ∃ delivery ∈ state.log, (delivery.page, delivery.next) = body) ?_
    (fun source event target _ answered _ stepped => ?_) call body returned
  · rintro _ ⟨now, rfl⟩ _ _ found
    cases found
  · -- A phase that is no response.
    have silent {call : Nat} {phase : Phase codec}
        (calls : target.calls = Function.update source.calls call phase)
        (log : target.log = source.log) (none : phase.response? = none) : ∀ call body,
        (target.calls call).response? = some body →
          ∃ delivery ∈ target.log, (delivery.page, delivery.next) = body := by
      rw [log]
      refine forall_calls (P := fun phase => ∀ body, phase.response? = some body →
        ∃ delivery ∈ source.log, (delivery.page, delivery.next) = body) calls ?_ answered
      intro body found
      rw [none] at found
      cases found
    cases step_outcome stepped with
    | fails enters | resumes _ _ _ enters | loads _ _ _ enters | readsBack _ _ enters
    | composes _ _ enters | seals _ _ _ _ enters => exact silent enters.calls enters.log rfl
    | opens opens => exact silent opens.calls opens.log rfl
    | commits commits =>
      rw [commits.log]
      refine forall_calls (P := fun phase => ∀ body, phase.response? = some body →
        ∃ delivery ∈ _ :: source.log, (delivery.page, delivery.next) = body) commits.calls ?_ ?_
      · rintro _ ⟨⟩
        exact ⟨_, List.mem_cons_self, rfl⟩
      · intro call body found
        obtain ⟨delivery, logged, same⟩ := answered call body found
        exact ⟨delivery, List.mem_cons_of_mem _ logged, same⟩

theorem Kept.cursor_eq (kept : state.Kept) {delivery : Delivery codec}
    (logged : delivery ∈ state.log) : delivery.page.cursor = delivery.node.token := by
  obtain ⟨⟨_, -, page⟩, -⟩ := (kept.delivered delivery logged).1.page.spec
  exact page ▸ rfl

theorem Kept.next_eq_none (kept : state.Kept) {delivery : Delivery codec}
    (logged : delivery ∈ state.log) : delivery.next = none ↔ delivery.composed.more = false := by
  obtain ⟨sound, -, linked⟩ := kept.delivered delivery logged
  have spec := sound.page.spec.2
  rcases linked with ⟨ended, last⟩ | ⟨frame, token, continued, next, -⟩
  · rw [ended] at spec
    cases more : delivery.composed.more with
    | true => simp [more] at spec
    | false => simp [last]
  · have more := (continued ▸ sound.page).continuation_eq.1
    simp [next, more]

def continuationOf (state : Composers codec) (row : CursorNodeRow) : Option CursorFrame :=
  (row.nextToken.bind state.stored.store.nodes.get).map (·.metadata)

/-- A commit over a committed node succeeds only with what was committed. -/
theorem committed_eq {node : CursorNode} {binding : CursorBinding} {page : CursorPage}
    {continuation : Option CursorFrame} {locked : Bool} {committedAt : Time} {candidate : UUID}
    {result : Option UUID} {after : Store codec} {row : CursorNodeRow} {digest : PageDigest}
    (done : state.stored.store.commitIncidentCursorPage locked committedAt candidate node.token
      binding (.of page) continuation = .ok (result, after))
    (found : state.stored.store.nodes.get node.token = some row)
    (committed : row.pageDigest = some digest) :
    (digest, state.continuationOf row) = (.of page, continuation) := by
  obtain ⟨held, session, there, -, commits⟩ := Store.commitIncidentCursorPage_eq_ok done
  obtain rfl := Option.some.inj ((Store.findNode_eq_some.mp there).1.symm.trans found)
  cases commits with
  | same also last =>
    cases committed.symm.trans also
    rw [continuationOf, last]
    rfl
  | again also link target agrees =>
    cases committed.symm.trans also
    rw [continuationOf, link, Option.bind_some, target, Option.map_some, agrees]
  | closes pending => cases pending.symm.trans committed
  | continued pending => cases pending.symm.trans committed

/-- A call that composed something else than was committed fails and leaves the nodes alone. -/
theorem fails_of_ne {call : Nat} {draft : Draft codec} {page : CursorPage}
    {continuation : Option CursorFrame} {row : CursorNodeRow} {digest : PageDigest}
    {locked : Bool} {committedAt : Time} {candidate : UUID}
    (before : state.calls call = .ready draft page continuation)
    (found : state.stored.store.nodes.get draft.node.token = some row)
    (committed : row.pageDigest = some digest)
    (differ : (digest, state.continuationOf row) ≠ (.of page, continuation))
    (stepped : (composerSystem codec).step state (.commit call locked committedAt candidate) =
      some next) :
    (∃ error, next.calls call = .returned (.error error)) ∧
      next.stored.store.nodes = state.stored.store.nodes := by
  cases step_outcome stepped with
  | @fails _ _ error enters =>
    refine ⟨⟨error, ?_⟩, enters.stored.nodes⟩
    rw [enters.calls]
    exact Function.update_self ..
  | opens opens => cases opens.capturing
  | commits commits =>
    cases before.symm.trans commits.before
    exact absurd (committed_eq commits.done found committed) differ

end Composers

/-- All calls that succeed on one token return the same response.  A call whose page
or continuation differs from what was committed fails and changes no node. -/
theorem replay_agreement {state : Composers codec}
    (reached : (composerSystem codec).Reachable System.always state) :
    (∀ first second a b, (state.calls first).response? = some a →
      (state.calls second).response? = some b → a.1.cursor = b.1.cursor → a = b) ∧
    ∀ call draft page continuation row digest,
      state.calls call = .ready draft page continuation →
      state.stored.store.nodes.get draft.node.token = some row → row.pageDigest = some digest →
      (digest, state.continuationOf row) ≠ (.of page, continuation) →
      ∀ locked committedAt candidate next,
        (composerSystem codec).step state (.commit call locked committedAt candidate) =
          some next →
        (∃ error, next.calls call = .returned (.error error)) ∧
          next.stored.store.nodes = state.stored.store.nodes := by
  have kept := Composers.kept_of_reachable reached
  constructor
  · intro first second a b returnedA returnedB same
    obtain ⟨d, loggedA, rfl⟩ := Composers.response_delivered reached returnedA
    obtain ⟨e, loggedB, rfl⟩ := Composers.response_delivered reached returnedB
    have token : d.node.token = e.node.token := by
      rw [← kept.cursor_eq loggedA, ← kept.cursor_eq loggedB]
      exact same
    obtain ⟨page, next⟩ := kept.agreed d loggedA e loggedB token
    exact Prod.ext page next
  · intro call draft page continuation row digest before found committed differ locked
      committedAt candidate next stepped
    exact Composers.fails_of_ne before found committed differ stepped

/-! ## A sample chain -/

def sampleCaller : Caller :=
  ⟨⟨"person", "tenant", "", "HUMAN", "", "", "", [], none⟩, "policy", sampleDigest⟩

def sampleIncident : Item :=
  [("incident_id", Value.text "a"), ("severity", .text "CRITICAL"),
    ("lifecycle_state", .text "OPEN"), ("action_required", .flag true)].foldr
      (fun (field : String × Value) item => item.insert field.1 field.2) ∅

def sampleBody (name : Producer) : OwnerBody :=
  ⟨⟨false, sampleToken 1, "", sampleToken 1, sampleDigest, "", "", "", none⟩, true, true,
    some (if name = .gateway then [some sampleIncident] else []), some false, 0, 0,
    "ouf.incident-priority.v1", "ouf.incident-owner-cursor.v1", false⟩

def sampleAnswer (read : OwnerRead) : OwnerReply := ⟨some (sampleBody read.producer), 0⟩

def sampleSelf : Option SelfReply := some ⟨some .degraded, false, true⟩

def finishCall (call : Nat) (drawn : UUID) : List ComposerEvent :=
  [.compose call sampleAnswer, .finalize call true (sampleClock 0) none drawn,
    .commit call true 0 drawn]

/-- A start with pages of one item, a second call on its token and one on the next token. -/
def pagedTwice : List ComposerEvent :=
  .start 0 sampleCaller false (Finmap.singleton "limit" (.whole 1)) sampleAnswer sampleSelf
      ⟨true, none, 0, 0, 1, 2⟩ ::
    .page 1 sampleCaller false 1 0 0 :: finishCall 0 3 ++
    .readBack 1 sampleAnswer sampleSelf :: finishCall 1 4 ++
    .page 2 sampleCaller false 3 0 0 :: .readBack 2 sampleAnswer sampleSelf :: finishCall 2 5

def replayComposers (trace : List ComposerEvent) : Option (Composers sampleCodec) :=
  (composerSystem sampleCodec).replay (fun _ _ => true) (.initial sampleCodec 0) trace

theorem replayComposers_reachable {guard : Composers sampleCodec → ComposerEvent → Prop}
    {trace : List ComposerEvent} (allowed : ∀ event ∈ trace, ∀ state, guard state event)
    (check : Composers sampleCodec → Bool)
    (accepted : (replayComposers trace).any check = true) :
    ∃ state, replayComposers trace = some state ∧
      (composerSystem sampleCodec).Reachable guard state ∧ check state = true :=
  System.exists_reachable (fun event member state _ => allowed event member state)
    (show (composerSystem sampleCodec).initial _ from ⟨0, rfl⟩) accepted

def summary (body : CursorPage × Option UUID) : UUID × Option UUID × Nat × Bool :=
  (body.1.cursor, body.2, body.1.items.length, body.1.truncated)

structure PagedTwice (state : Composers sampleCodec) : Prop where
  first : ∃ body, (state.calls 0).response? = some body ∧ summary body = (1, some 3, 1, true)
  again : ∃ body, (state.calls 1).response? = some body ∧ summary body = (1, some 3, 1, true)
  last : ∃ body, (state.calls 2).response? = some body ∧ summary body = (3, none, 1, false)
  opened : ∃ node ∈ state.created, node.token = 1 ∧ node.frame.pageNumber = 0

theorem pagedTwice_reachable {guard : Composers sampleCodec → ComposerEvent → Prop}
    (allowed : ∀ event ∈ pagedTwice, ∀ state, guard state event) :
    ∃ state, replayComposers pagedTwice = some state ∧
      (composerSystem sampleCodec).Reachable guard state ∧ PagedTwice state := by
  obtain ⟨state, replayed, reached, checked⟩ := replayComposers_reachable allowed
    (fun state => decide ((state.calls 0).response?.map summary = some (1, some 3, 1, true) ∧
      (state.calls 1).response?.map summary = some (1, some 3, 1, true) ∧
      (state.calls 2).response?.map summary = some (3, none, 1, false) ∧
      ∃ node ∈ state.created, node.token = 1 ∧ node.frame.pageNumber = 0)) (by decide +kernel)
  obtain ⟨first, again, last, opened⟩ := of_decide_eq_true checked
  exact ⟨state, replayed, reached, Option.map_eq_some_iff.mp first,
    Option.map_eq_some_iff.mp again, Option.map_eq_some_iff.mp last, opened⟩

theorem replay_agreement_pagedTwice :
    ∃ state body, replayComposers pagedTwice = some state ∧
      (state.calls 0).response? = some body ∧ (state.calls 1).response? = some body := by
  obtain ⟨state, replayed, reached, runs⟩ := pagedTwice_reachable fun _ _ _ => trivial
  obtain ⟨a, returnedA, tokenA⟩ := runs.first
  obtain ⟨b, returnedB, tokenB⟩ := runs.again
  have token := congrArg Prod.fst (tokenA.trans tokenB.symm)
  have same := (replay_agreement reached).1 0 1 a b returnedA returnedB token
  exact ⟨state, a, replayed, returnedA, same ▸ returnedB⟩

end OufMcp.Cursor
