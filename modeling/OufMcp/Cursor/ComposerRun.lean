import OufMcp.Cursor.Bookmarks
import OufMcp.Cursor.Composer
import OufMcp.Cursor.Merge
import OufMcp.Cursor.StoreChain

/-!
# What composer calls can do

Every step of a call either ends it with an error or takes it one phase further,
with what was read, created or committed on the way.  Results about the composers
split these outcomes and never look into the steps again.
-/

namespace OufMcp.Cursor

open Ledger (UUID Time)
open Relational Transition Interaction

variable {codec : Codec} {caller : Caller} {locked : Bool} {fresh : CreateInputs}

def ComposerEvent.call : ComposerEvent → Nat
  | .start call _ _ _ _ _ _ | .resume call _ _ _ _ | .recapture call _ _ _ | .page call _ _ _ _ _
  | .readBack call _ _ | .compose call _ | .finalize call _ _ _ _ | .commit call _ _ _
  | .abandon call => call

def ComposerEvent.answer : ComposerEvent → Option (OwnerRead → OwnerReply)
  | .start _ _ _ _ answer _ _ | .recapture _ answer _ _ | .readBack _ answer _
  | .compose _ answer => some answer
  | _ => none

def ComposerEvent.self : ComposerEvent → Option (Option SelfReply)
  | .start _ _ _ _ _ self _ | .recapture _ _ self _ | .readBack _ _ self => some self
  | _ => none

/-! ## Owner reads -/

section Reads

open Dialogue

variable (answer : OwnerRead → OwnerReply)

theorem length_asked_capture_le (frame : CursorFrame) (self : Option SelfReply) :
    ((capture codec frame self).asked answer).length ≤ 2 := by
  have owner (name : Producer) :
      ((captureOwner frame name : Reading (CursorOwnerPage codec)).asked answer).length ≤ 1 := by
    unfold captureOwner
    refine length_asked_bind_le answer (m := 1) (n := 0)
      (length_asked_callProducer_le answer _ _ _) fun _ _ => ?_
    exact length_asked_bind_le answer (m := 0) (n := 0) (by simp) fun _ _ => (by simp)
  unfold capture
  refine length_asked_bind_le answer (m := 1) (n := 1) (owner .gateway) fun _ _ => ?_
  refine length_asked_bind_le answer (m := 1) (n := 0) (owner .ingestion) fun _ _ => ?_
  refine length_asked_bind_le answer (m := 0) (n := 0) (by simp) fun _ _ => ?_
  exact length_asked_bind_le answer (m := 0) (n := 0) (by simp) fun _ _ => (by simp)

theorem length_asked_readBackOwner_le (frame : CursorFrame) (position : OwnerPosition) :
    ((readBackOwner frame position : Reading (CursorOwnerPage codec)).asked answer).length ≤ 1 := by
  unfold readBackOwner
  refine length_asked_bind_le answer (m := 1) (n := 0)
    (length_asked_readPage_le answer _ _ _ _) fun _ _ => ?_
  refine length_asked_bind_le answer (m := 0) (n := 0) (by simp) fun _ _ => ?_
  exact length_asked_bind_le answer (m := 0) (n := 0) (by simp) fun _ _ => (by simp)

theorem length_asked_readBackOwners_le (frame : CursorFrame) (owners : List OwnerPosition)
    (pages : Producer → CursorOwnerPage codec) :
    ((readBackOwners frame owners pages).asked answer).length ≤ owners.length := by
  induction owners generalizing pages with
  | nil => simp [readBackOwners]
  | cons position rest ih =>
    rw [List.length_cons, Nat.add_comm]
    exact length_asked_bind_le answer (length_asked_readBackOwner_le answer frame position)
      fun page _ => ih _

theorem length_asked_readBack_le (frame : CursorFrame) (self : Option SelfReply) :
    ((readBack codec frame self).asked answer).length ≤ frame.owners.length := by
  unfold readBack
  refine length_asked_bind_le answer (n := 0)
    (length_asked_readBackOwners_le answer _ _ _) fun _ _ => ?_
  refine length_asked_bind_le answer (m := 0) (n := 0) (by simp) fun _ _ => ?_
  exact length_asked_bind_le answer (m := 0) (n := 0) (by simp) fun _ _ => (by simp)

end Reads

namespace Composers

variable {state next : Composers codec} {event : ComposerEvent}

def Transacts (state : Composers codec) (stored : StoreState codec) : Prop :=
  stored = state.stored ∨ ∃ event, state.stored.step event = some stored

/-- At most one transaction, which leaves the cursors as they are.  A new bookmark is one that a
finalizer put, with the filters of its page. -/
structure Quiet (state : Composers codec) (event : ComposerEvent) (stored : StoreState codec) :
    Prop where
  transacts : state.Transacts stored
  nodes : stored.store.nodes = state.stored.store.nodes
  sessions : stored.store.sessions = state.stored.store.sessions
  bookmarks : ∀ token row, stored.store.bookmarks.get token = some row →
    state.stored.store.bookmarks.get token = some row ∨
      ∃ call locked clock victim draft, event = .finalize call locked clock victim token ∧
        state.calls call = .composed draft ∧
        row.metadata.filters = draft.composed.frame.filters

/-- How often an event may read the owners. -/
def cost (state : Composers codec) (event : ComposerEvent) : Nat :=
  match event, state.calls event.call with
  | .start .., .idle | .recapture .., .resuming .. => 2
  | .readBack .., .loaded _ _ node => node.frame.owners.length
  | .compose .., .holding _ => 1
  | _, _ => 0

def Counts (state : Composers codec) (event : ComposerEvent) (reads : Nat → Nat) : Prop :=
  ∃ asked ≤ state.cost event,
    reads = Function.update state.reads event.call (state.reads event.call + asked)

/-- A call enters a phase; nothing was created or committed. -/
structure Enters (state : Composers codec) (event : ComposerEvent) (next : Composers codec)
    (phase : Phase codec) : Prop where
  stored : state.Quiet event next.stored
  calls : next.calls = Function.update state.calls event.call phase
  created : next.created = state.created
  log : next.log = state.log
  reads : state.Counts event next.reads

/-- A call captures the owners for a frame, of its own or of the bookmark it resumes from. -/
inductive Capturing (state : Composers codec) : ComposerEvent → Caller → CursorFrame →
    (OwnerRead → OwnerReply) → Option SelfReply → CreateInputs → Prop where
  | starts {call caller publication arguments answer self fresh blank}
      (idle : state.calls call = .idle)
      (started : startFrame codec publication arguments = .ok blank) :
      Capturing state (.start call caller publication arguments answer self fresh) caller blank
        answer self fresh
  | resumes {call caller answer self fresh blank}
      (resuming : state.calls call = .resuming caller blank) :
      Capturing state (.recapture call answer self fresh) caller blank answer self fresh

/-- Both owners were captured, and a session was created with its first node. -/
structure Opens (state : Composers codec) (event : ComposerEvent) (next : Composers codec)
    (work : Work codec) (blank : CursorFrame) (answer : OwnerRead → OwnerReply)
    (own : Option SelfReply) (fresh : CreateInputs) : Prop where
  capturing : state.Capturing event work.caller blank answer own fresh
  binds : bindIncidentCursor codec work.caller.identity work.caller.policyRef
    work.caller.manifest = .ok work.binding
  ran : (capture codec blank own).run answer = .ok (work.node.frame, work.pages)
  done : state.stored.store.createIncidentCursor fresh.locked fresh.victim fresh.sweptAt
    fresh.insertedAt fresh.token fresh.session work.binding work.node.frame =
      .ok (work.node, next.stored.store)
  stepped : state.stored.step (.create fresh.locked fresh.victim fresh.sweptAt fresh.insertedAt
    fresh.token fresh.session work.binding work.node.frame) = some next.stored
  calls : next.calls = Function.update state.calls event.call (.holding work)
  created : next.created = work.node :: state.created
  log : next.log = state.log
  reads : state.Counts event next.reads

/-- A page was committed and returned. -/
structure Commits (state next : Composers codec) (call : Nat) (delivery : Delivery codec)
    (locked : Bool) (committedAt : Time) (candidate : UUID) : Prop where
  before : state.calls call = .ready delivery.toDraft delivery.page delivery.continuation
  done : state.stored.store.commitIncidentCursorPage locked committedAt candidate
    delivery.node.token delivery.binding (.of delivery.page) delivery.continuation =
      .ok (delivery.next, next.stored.store)
  stepped : state.stored.step (.commit locked committedAt candidate delivery.node.token
    delivery.binding (.of delivery.page) delivery.continuation) = some next.stored
  calls : next.calls =
    Function.update state.calls call (.returned (.ok (delivery.page, delivery.next)))
  created : next.created =
    opened delivery.node candidate delivery.continuation delivery.next ++ state.created
  log : next.log = delivery :: state.log
  reads : next.reads = state.reads

inductive Outcome (state : Composers codec) : ComposerEvent → Composers codec → Prop where
  | fails {event next error} (enters : state.Enters event next (.returned (.error error))) :
      Outcome state event next
  | resumes {call caller arguments readAt binding next} {limit : Nat}
      {retained : PublicationBookmark} (idle : state.calls call = .idle)
      (loaded : state.stored.store.loadPublicationBookmark readAt retained.token binding =
        .ok retained)
      (canonical : ∃ filters,
        canonicalPublicationFilters codec retained.vector.filters = .ok filters)
      (enters : state.Enters (.resume call caller arguments retained.token readAt) next
        (.resuming caller (blankFrame retained.vector.filters limit true (some retained.token)
          (some retained.vector)))) :
      Outcome state (.resume call caller arguments retained.token readAt) next
  | loads {call caller publication readAt checkedAt binding next} {node : CursorNode}
      (idle : state.calls call = .idle)
      (binds : bindIncidentCursor codec caller.identity caller.policyRef caller.manifest =
        .ok binding)
      (loaded : state.stored.store.loadIncidentCursor readAt node.token binding = .ok node)
      (enters : state.Enters (.page call caller publication node.token readAt checkedAt) next
        (.loaded caller binding node)) :
      Outcome state (.page call caller publication node.token readAt checkedAt) next
  | readsBack {call caller binding node pages answer self next}
      (before : state.calls call = .loaded caller binding node)
      (ran : (readBack codec node.frame self).run answer = .ok pages)
      (enters : state.Enters (.readBack call answer self) next
        (.holding ⟨caller, binding, node, pages⟩)) :
      Outcome state (.readBack call answer self) next
  | composes {call work answer composed next} (before : state.calls call = .holding work)
      (ran : (Cursor.compose work.node.frame work.pages).run answer = .ok composed)
      (enters : state.Enters (.compose call answer) next (.composed ⟨work, answer, composed⟩)) :
      Outcome state (.compose call answer) next
  | seals {call locked clock victim fresh draft page continuation bookmark next}
      (before : state.calls call = .composed draft)
      (certified : bookmark.isSome = draft.composed.final)
      (marked : ∀ token, bookmark = some token → ∃ row,
        next.stored.store.bookmarks.get token = some row ∧
          row.metadata.filters = draft.composed.frame.filters)
      (done : sealPage codec draft.composed draft.node bookmark = .ok (page, continuation))
      (enters : state.Enters (.finalize call locked clock victim fresh) next
        (.ready draft page continuation)) :
      Outcome state (.finalize call locked clock victim fresh) next
  | opens {event next work blank answer own fresh}
      (opens : state.Opens event next work blank answer own fresh) : Outcome state event next
  | commits {call locked committedAt candidate delivery next}
      (commits : state.Commits next call delivery locked committedAt candidate) :
      Outcome state (.commit call locked committedAt candidate) next

/-! ## Every step has an outcome -/

theorem counts_none : state.Counts event state.reads :=
  ⟨0, Nat.zero_le _, by rw [Nat.add_zero, Function.update_eq_self]⟩

theorem quiet_of_same {stored : StoreState codec} (transacts : state.Transacts stored)
    (same : stored.store = state.stored.store) : state.Quiet event stored :=
  ⟨transacts, same ▸ rfl, same ▸ rfl, fun _ _ found => .inl (same ▸ found)⟩

theorem quiet_self : state.Quiet event state.stored := quiet_of_same (.inl rfl) rfl

theorem quiet_of_failure {stored : StoreState codec} {storeEvent : StoreEvent}
    {error : CursorError} (stepped : state.stored.step storeEvent = some stored)
    (failed : state.stored.failure storeEvent = some error) : state.Quiet event stored :=
  quiet_of_same (.inr ⟨_, stepped⟩) (StoreState.store_eq_of_failure failed stepped)

theorem finalVector_filters {frame : CursorFrame} {binding : CursorBinding}
    {vector : PublicationVector} (made : finalVector codec caller frame = .ok (binding, vector)) :
    vector.filters = frame.filters := by
  simp only [finalVector, bind_eq_ok, pure_eq_ok, Prod.mk.injEq] at made
  obtain ⟨_, -, _, -, _, -, -, rfl⟩ := made
  rfl

theorem quiet_of_put {stored : StoreState codec} {call : Nat} {draft : Draft codec}
    {clock : Store.PutClock} {victim : Option UUID} {fresh : UUID} {binding : CursorBinding}
    {vector : PublicationVector} {parent : Option UUID}
    (before : state.calls call = .composed draft)
    (made : finalVector codec draft.caller draft.composed.frame = .ok (binding, vector))
    (stepped : state.stored.step (.put locked clock victim fresh ⟨binding, vector, parent⟩) =
      some stored) : state.Quiet (.finalize call locked clock victim fresh) stored := by
  cases (StoreState.step_moves stepped).1 with
  | none same _ => exact quiet_of_same (.inr ⟨_, stepped⟩) same
  | put _ _ _ _ done =>
    have published := (Store.putPublicationBookmark_eq_ok done).2
    obtain ⟨nodes, sessions⟩ := published.cursors
    refine ⟨.inr ⟨_, stepped⟩, nodes, sessions, fun token row found => ?_⟩
    rcases published.get_bookmarks found with old | ⟨rfl, -, rfl, -⟩
    · exact .inl old
    · exact .inr ⟨call, locked, clock, victim, draft, rfl, before, finalVector_filters made⟩

theorem enters_enter {stored : StoreState codec} {reads : Nat → Nat} {phase : Phase codec}
    (quiet : state.Quiet event stored) (counts : state.Counts event reads) :
    state.Enters event ({ state with stored, reads }.enter event.call phase) phase :=
  ⟨quiet, rfl, rfl, rfl, counts⟩

theorem fails_enter {stored : StoreState codec} {reads : Nat → Nat} {error : CursorError}
    (quiet : state.Quiet event stored) (counts : state.Counts event reads) :
    state.Outcome event
      ({ state with stored, reads }.enter event.call (.returned (.error error))) :=
  .fails (enters_enter quiet counts)

theorem outcome_enterOr {α : Type} {stored : StoreState codec} {reads : Nat → Nat}
    {result : Except CursorError α} {phase : α → Phase codec}
    (quiet : state.Quiet event stored) (counts : state.Counts event reads)
    (succeeds : ∀ value, result = .ok value →
      state.Enters event ({ state with stored, reads }.enter event.call (phase value))
        (phase value) →
      state.Outcome event ({ state with stored, reads }.enter event.call (phase value))) :
    state.Outcome event ({ state with stored, reads }.enterOr event.call result phase) := by
  cases result with
  | error error => exact fails_enter quiet counts
  | ok value => exact succeeds value rfl (enters_enter quiet counts)

theorem Capturing.cost_eq {blank : CursorFrame} {answer : OwnerRead → OwnerReply}
    {self : Option SelfReply} (capturing : state.Capturing event caller blank answer self fresh) :
    state.cost event = 2 := by
  cases capturing with
  | starts idle => simp only [cost, ComposerEvent.call, idle]
  | resumes resuming => simp only [cost, ComposerEvent.call, resuming]

theorem create_outcome {blank : CursorFrame} {answer : OwnerRead → OwnerReply}
    {self : Option SelfReply}
    (stepped : state.create event.call caller blank answer self fresh = some next)
    (capturing : state.Capturing event caller blank answer self fresh) :
    state.Outcome event next := by
  have counts : state.Counts event
      (state.reading event.call answer (capture codec blank self)).reads :=
    ⟨_, capturing.cost_eq ▸ length_asked_capture_le answer blank self, rfl⟩
  unfold create at stepped
  split at stepped
  next =>
    cases stepped
    exact fails_enter quiet_self counts_none
  next binding binds =>
    dsimp only at stepped
    split at stepped
    next =>
      cases stepped
      exact fails_enter quiet_self counts
    next captured pages ran =>
      obtain ⟨stored, storeStep, rfl⟩ := Option.map_eq_some_iff.mp stepped
      split
      next error failed =>
        exact fails_enter (quiet_of_failure storeStep (congrArg errorOf failed)) counts
      next node after done =>
        obtain rfl := StoreState.create_store storeStep done
        obtain ⟨rfl, -⟩ := Store.createIncidentCursor_eq_ok done
        exact .opens ⟨capturing, binds, ran, done, storeStep, rfl, rfl, rfl, counts⟩

theorem resume_outcome {call : Nat} {arguments : Filters} {token : UUID} {readAt : Time}
    (stepped : state.resume call caller arguments token readAt = some next)
    (idle : state.calls call = .idle) :
    state.Outcome (.resume call caller arguments token readAt) next := by
  unfold resume at stepped
  split at stepped
  next limit binding _ _ =>
    obtain ⟨stored, storeStep, rfl⟩ := Option.map_eq_some_iff.mp stepped
    have quiet : state.Quiet (.resume call caller arguments token readAt) stored := by
      cases (StoreState.step_moves storeStep).1 with
      | none same _ => exact quiet_of_same (.inr ⟨_, storeStep⟩) same
    refine outcome_enterOr quiet counts_none fun frame done enters => ?_
    simp only [Store.readPublicationBookmark, resumeFrame, bind_eq_ok, pure_eq_ok] at done
    obtain ⟨retained, ⟨_, -, loaded⟩, _, canonical, rfl⟩ := done
    obtain ⟨row, -, -, -, same⟩ := Store.loadPublicationBookmark_eq_ok loaded
    obtain rfl : retained.token = token := congrArg PublicationBookmark.token same
    simp only [canonicalPublicationVector, bind_eq_ok] at canonical
    obtain ⟨_, -, filters, canonical, -⟩ := canonical
    exact .resumes idle loaded ⟨filters, canonical⟩ enters
  all_goals
    cases stepped
    exact fails_enter quiet_self counts_none

theorem page_outcome {call : Nat} {publication : Bool} {token : UUID} {readAt checkedAt : Time}
    (stepped : state.page call caller publication token readAt checkedAt = some next)
    (idle : state.calls call = .idle) :
    state.Outcome (.page call caller publication token readAt checkedAt) next := by
  unfold page at stepped
  split at stepped
  next =>
    cases stepped
    exact fails_enter quiet_self counts_none
  next binding binds =>
    obtain ⟨stored, storeStep, rfl⟩ := Option.map_eq_some_iff.mp stepped
    have quiet : state.Quiet (.page call caller publication token readAt checkedAt) stored := by
      cases (StoreState.step_moves storeStep).1 with
      | none same _ => exact quiet_of_same (.inr ⟨_, storeStep⟩) same
    refine outcome_enterOr quiet counts_none fun node done enters => ?_
    simp only [bind_eq_ok, pure_eq_ok] at done
    obtain ⟨node, loaded, _, -, _, -, _, -, rfl⟩ := done
    obtain ⟨_, _, -, -, -, -, same⟩ := Store.loadIncidentCursor_eq_ok loaded
    obtain rfl : node.token = token := congrArg CursorNode.token same
    exact .loads idle binds loaded enters

theorem finalize_outcome {call : Nat} {draft : Draft codec} {clock : Store.PutClock}
    {victim : Option UUID} {fresh : UUID}
    (stepped : state.finalize call draft locked clock victim fresh = some next)
    (before : state.calls call = .composed draft) (final : draft.composed.final = true) :
    state.Outcome (.finalize call locked clock victim fresh) next := by
  unfold finalize at stepped
  split at stepped
  next =>
    cases stepped
    exact fails_enter quiet_self counts_none
  next binding vector made =>
    obtain ⟨stored, storeStep, rfl⟩ := Option.map_eq_some_iff.mp stepped
    refine outcome_enterOr (quiet_of_put before made storeStep) counts_none
      fun value done enters => ?_
    simp only [bind_eq_ok, Prod.exists] at done
    obtain ⟨bookmark, after, put, sealed⟩ := done
    have kept : stored.store = after := by
      simp only [StoreState.step] at storeStep
      split at storeStep
      next =>
        cases storeStep
        simp only [put, StoreState.commit, StoreState.answer]
      next => cases storeStep
    obtain ⟨row, found, same⟩ := (Store.putPublicationBookmark_eq_ok put).2.filters
    refine .seals before (by simp [final]) ?_ sealed enters
    rintro _ ⟨⟩
    exact ⟨row, kept ▸ found, same.trans (finalVector_filters made)⟩

theorem commit_outcome {call : Nat} {draft : Draft codec} {page : CursorPage}
    {continuation : Option CursorFrame} {committedAt : Time} {candidate : UUID}
    (stepped : state.commit call draft page continuation locked committedAt candidate = some next)
    (before : state.calls call = .ready draft page continuation) :
    state.Outcome (.commit call locked committedAt candidate) next := by
  unfold commit at stepped
  obtain ⟨stored, storeStep, rfl⟩ := Option.map_eq_some_iff.mp stepped
  split
  next error failed =>
    exact fails_enter (quiet_of_failure storeStep (congrArg errorOf failed)) counts_none
  next result after done =>
    obtain rfl := StoreState.commit_store storeStep done
    exact @Outcome.commits _ _ _ _ _ _ ⟨draft, page, continuation, result⟩ _
      ⟨before, done, storeStep, rfl, rfl, rfl, rfl⟩

theorem step_outcome (stepped : (composerSystem codec).step state event = some next) :
    state.Outcome event next := by
  simp only [composerSystem] at stepped
  cases event with
  | start call caller publication arguments answer self fresh =>
    simp only [step] at stepped
    split at stepped
    next idle started => exact create_outcome stepped (.starts idle started)
    next =>
      cases stepped
      exact fails_enter quiet_self counts_none
    next => cases stepped
  | resume call caller arguments token readAt =>
    simp only [step] at stepped
    split at stepped
    next idle => exact resume_outcome stepped idle
    next => cases stepped
  | recapture call answer self fresh =>
    simp only [step] at stepped
    split at stepped
    next resuming => exact create_outcome stepped (.resumes resuming)
    next => cases stepped
  | page call caller publication token readAt checkedAt =>
    simp only [step] at stepped
    split at stepped
    next idle => exact page_outcome stepped idle
    next => cases stepped
  | readBack call answer self =>
    simp only [step] at stepped
    split at stepped
    next caller binding node before =>
      cases stepped
      have few : ((readBack codec node.frame self).asked answer).length ≤
          state.cost (.readBack call answer self) := by
        simp only [cost, ComposerEvent.call, before]
        exact length_asked_readBack_le answer node.frame self
      exact outcome_enterOr quiet_self ⟨_, few, rfl⟩ fun pages ran enters =>
        .readsBack before ran enters
    next => cases stepped
  | compose call answer =>
    simp only [step] at stepped
    split at stepped
    next work before =>
      cases stepped
      have few : ((Cursor.compose work.node.frame work.pages).asked answer).length ≤
          state.cost (.compose call answer) := by
        simp only [cost, ComposerEvent.call, before]
        exact (length_asked_compose_le answer work.node.frame work.pages).1
      exact outcome_enterOr quiet_self ⟨_, few, rfl⟩ fun composed ran enters =>
        .composes before ran enters
    next => cases stepped
  | finalize call locked clock victim fresh =>
    simp only [step] at stepped
    split at stepped
    next draft before =>
      split at stepped
      next final => exact finalize_outcome stepped before final
      next pending =>
        cases stepped
        refine outcome_enterOr quiet_self counts_none fun value sealed enters => ?_
        refine .seals before ?_ ?_ sealed enters
        · simpa using pending
        · rintro _ ⟨⟩
    next => cases stepped
  | commit call locked committedAt candidate =>
    simp only [step] at stepped
    split at stepped
    next before => exact commit_outcome stepped before
    next => cases stepped
  | abandon call =>
    simp only [step] at stepped
    split at stepped
    next => cases stepped
    next => cases stepped
    next =>
      cases stepped
      exact fails_enter quiet_self counts_none

/-! ## What outcomes have in common -/

theorem Capturing.brings {blank : CursorFrame} {answer : OwnerRead → OwnerReply}
    {self : Option SelfReply} (capturing : state.Capturing event caller blank answer self fresh) :
    event.answer = some answer ∧ event.self = some self := by
  cases capturing <;> exact ⟨rfl, rfl⟩

theorem opened_eq (node : CursorNode) (candidate : UUID) (continuation : Option CursorFrame)
    (result : Option UUID) :
    opened node candidate continuation result = [] ∨
      ∃ new, opened node candidate continuation result = [new] ∧ new.token = candidate ∧
        continuation = some new.frame := by
  unfold opened
  split
  next frame token =>
    split
    next => exact .inr ⟨_, rfl, rfl, rfl⟩
    next => exact .inl rfl
  next => exact .inl rfl

theorem Opens.unused {work : Work codec} {blank : CursorFrame} {answer : OwnerRead → OwnerReply}
    {own : Option SelfReply} (opens : state.Opens event next work blank answer own fresh) :
    work.node.token ∉ state.stored.issued ∧ work.node.session ∉ state.stored.issued := by
  have drawn := (StoreState.step_moves opens.stepped).2.2.2
  rw [(Store.createIncidentCursor_eq_ok opens.done).1]
  exact ⟨drawn _ (by simp [StoreEvent.drawn]), drawn _ (by simp [StoreEvent.drawn])⟩

theorem Commits.unused {call : Nat} {delivery : Delivery codec} {committedAt : Time}
    {candidate : UUID} (commits : state.Commits next call delivery locked committedAt candidate) :
    candidate ∉ state.stored.issued :=
  (StoreState.step_moves commits.stepped).2.2.2 candidate (by simp [StoreEvent.drawn])

theorem Outcome.stored (outcome : state.Outcome event next) : state.Transacts next.stored := by
  cases outcome with
  | fails enters | resumes _ _ _ enters | loads _ _ _ enters | readsBack _ _ enters
  | composes _ _ enters | seals _ _ _ _ enters => exact enters.stored.transacts
  | opens opens => exact .inr ⟨_, opens.stepped⟩
  | commits commits => exact .inr ⟨_, commits.stepped⟩

/-- The store of the composers runs as the store system does. -/
theorem reachable_stored {guard : Composers codec → ComposerEvent → Prop}
    (reached : (composerSystem codec).Reachable guard state) :
    (storeSystem codec).Reachable System.always state.stored := by
  refine reached.induction (P := fun state =>
    (storeSystem codec).Reachable System.always state.stored) ?_
    fun source event target _ before _ stepped => ?_
  · rintro _ ⟨now, rfl⟩
    exact .of_initial ⟨now, rfl⟩
  · rcases (step_outcome stepped).stored with same | ⟨storeEvent, storeStep⟩
    · exact same ▸ before
    · exact before.step trivial storeStep

end Composers

end OufMcp.Cursor
