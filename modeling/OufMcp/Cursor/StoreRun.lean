import OufMcp.Cursor.StoreMoves
import OufMcp.Identifier.Uuid
import OufMcp.Transition.System

/-!
# Runs of the store

Any interleaving of store calls with arbitrary frames, digests, vectors and
bindings.  The database clock never goes back and `uuid.New` never repeats a
value, so a run keeps the last reading and the identifiers it drew.  What
`PutPublicationBookmark` answered is kept for the results about its repetition.
A load only reads.
-/

namespace OufMcp.Cursor

open Ledger (UUID Time)
open Relational Transition

/-- The arguments of a `PutPublicationBookmark`. -/
structure PutRequest where
  binding : CursorBinding
  vector : PublicationVector
  parent : Option UUID
  deriving DecidableEq

structure StoreState (codec : Codec) where
  store : Store codec
  now : Time
  issued : List UUID
  answers : List (PutRequest × PublicationBookmark)

inductive StoreEvent where
  | create (locked : Bool) (victim : Option UUID) (sweptAt insertedAt : Time)
      (token session : UUID) (binding : CursorBinding) (frame : CursorFrame)
  | load (readAt : Time) (token : UUID) (binding : CursorBinding)
  | commit (locked : Bool) (committedAt : Time) (candidate token : UUID)
      (binding : CursorBinding) (digest : PageDigest) (next : Option CursorFrame)
  | put (locked : Bool) (clock : Store.PutClock) (victim : Option UUID) (fresh : UUID)
      (request : PutRequest)
  | read (readAt : Time) (token : UUID) (binding : CursorBinding)

variable {codec : Codec}

/-- The readings of one transaction follow each other. -/
def Store.PutClock.ordered (clock : Store.PutClock) : Prop :=
  clock.parentAt ≤ clock.selectedAt ∧ clock.selectedAt ≤ clock.reloadedAt ∧
    clock.reloadedAt ≤ clock.sweptAt ∧ clock.sweptAt ≤ clock.insertedAt

instance (clock : Store.PutClock) : Decidable clock.ordered :=
  inferInstanceAs (Decidable (_ ∧ _ ∧ _ ∧ _))

namespace StoreState

def initial (codec : Codec) (now : Time) : StoreState codec := ⟨.empty codec, now, [], []⟩

/-- Keep what a transaction wrote, or nothing when it failed. -/
def commit {α : Type} (state : StoreState codec) (now : Time) (drawn : List UUID)
    (result : Except CursorError (α × Store codec)) : StoreState codec :=
  { state with
    store := match result with
      | .ok (_, after) => after
      | .error _ => state.store
    now
    issued := drawn ++ state.issued }

def answer (state : StoreState codec) (request : PutRequest)
    (result : Except CursorError (PublicationBookmark × Store codec)) : StoreState codec :=
  match result with
  | .ok (bookmark, _) => { state with answers := (request, bookmark) :: state.answers }
  | .error _ => state

theorem answer_store (state : StoreState codec) (request : PutRequest)
    (result : Except CursorError (PublicationBookmark × Store codec)) :
    (state.answer request result).store = state.store := by
  cases result with
  | ok => rfl
  | error => rfl

def step (state : StoreState codec) : StoreEvent → Option (StoreState codec)
  | .create locked victim sweptAt insertedAt token session binding frame =>
    if state.now ≤ sweptAt ∧ sweptAt ≤ insertedAt ∧ token ∉ state.issued ∧
        session ∉ state.issued then
      some (state.commit insertedAt [token, session] (state.store.createIncidentCursor locked
        victim sweptAt insertedAt token session binding frame))
    else none
  | .load readAt _ _ => if state.now ≤ readAt then some { state with now := readAt } else none
  | .commit locked committedAt candidate token binding digest next =>
    if state.now ≤ committedAt ∧ candidate ∉ state.issued then
      some (state.commit committedAt [candidate] (state.store.commitIncidentCursorPage locked
        committedAt candidate token binding digest next))
    else none
  | .put locked clock victim fresh request =>
    if state.now ≤ clock.parentAt ∧ clock.ordered ∧ fresh ∉ state.issued then
      let result := state.store.putPublicationBookmark locked clock victim fresh request.binding
        request.vector request.parent
      some ((state.commit clock.insertedAt [fresh] result).answer request result)
    else none
  | .read readAt _ _ => if state.now ≤ readAt then some { state with now := readAt } else none

def failure (state : StoreState codec) : StoreEvent → Option CursorError
  | .create locked victim sweptAt insertedAt token session binding frame =>
    errorOf (state.store.createIncidentCursor locked victim sweptAt insertedAt token session
      binding frame)
  | .load readAt token binding => errorOf (state.store.loadIncidentCursor readAt token binding)
  | .commit locked committedAt candidate token binding digest next =>
    errorOf (state.store.commitIncidentCursorPage locked committedAt candidate token binding
      digest next)
  | .put locked clock victim fresh request =>
    errorOf (state.store.putPublicationBookmark locked clock victim fresh request.binding
      request.vector request.parent)
  | .read readAt token binding => errorOf (state.store.readPublicationBookmark readAt token binding)

end StoreState

/-- The store under any interleaving of its callers. -/
def storeSystem (codec : Codec) : System (StoreState codec) StoreEvent where
  initial state := ∃ now, state = .initial codec now
  step := StoreState.step

/-! ## Sample runs -/

/-- Canonical identifiers, and encodings without length. -/
def sampleCodec : Codec where
  parseTime _ := some 0
  parseUuid := Identifier.parseCanonical
  uuidText := Identifier.canonicalText
  evidenceSize _ := 0
  filtersSize _ := 0
  vectorSize _ := 0
  frameSize _ := 0
  pageSize _ := 0
  storedFrameSize _ := 0
  storedVectorSize _ := 0

def sampleToken (number : UUID) : String := Identifier.canonicalText number

def sampleDigest : String := "aaaaaaaaaaaaaaaaaaaaaaaaaaaaaaaaaaaaaaaaaaaaaaaaaaaaaaaaaaaaaaaa"

def sampleBinding : CursorBinding :=
  ⟨"person", "tenant", ⟨.publication []⟩, "policy", sampleDigest⟩

def sampleOwner (name : Producer) (offset : Nat) : OwnerPosition :=
  ⟨name, sampleToken 1, offset, 0, ⟨[]⟩, sampleDigest, sampleToken 1, false, "", ""⟩

def sampleFrame (number offset : Nat) : CursorFrame :=
  ⟨cursorProfile, ∅, [sampleOwner .gateway offset, sampleOwner .ingestion 0], 1, number, .healthy,
    false, false, false, false, none, none⟩

def replayStore (trace : List StoreEvent) : Option (StoreState sampleCodec) :=
  (storeSystem sampleCodec).replay (fun _ _ => true) (.initial sampleCodec 0) trace

theorem replayStore_reachable (trace : List StoreEvent) (check : StoreState sampleCodec → Bool)
    (accepted : (replayStore trace).any check = true) :
    ∃ state, replayStore trace = some state ∧
      (storeSystem sampleCodec).Reachable System.always state ∧ check state = true :=
  System.exists_reachable (fun _ _ _ _ => trivial)
    (show (storeSystem sampleCodec).initial _ from ⟨0, rfl⟩) accepted

/-! ## What a step can do -/

/-- A step leaves the store alone or is one call that succeeded. -/
inductive StoreState.Moves (state : StoreState codec) : StoreEvent → StoreState codec → Prop where
  | none {event : StoreEvent} {next : StoreState codec} (same : next.store = state.store)
      (answers : next.answers = state.answers) : Moves state event next
  | create {locked : Bool} {victim : Option UUID} {sweptAt insertedAt : Time}
      {token session : UUID} {binding : CursorBinding} {frame : CursorFrame} {node : CursorNode}
      {next : StoreState codec} (answers : next.answers = state.answers)
      (swept : sweptAt ≤ next.now)
      (done : state.store.createIncidentCursor locked victim sweptAt insertedAt token session
        binding frame = .ok (node, next.store)) :
      Moves state (.create locked victim sweptAt insertedAt token session binding frame) next
  | commit {locked : Bool} {committedAt : Time} {candidate token : UUID}
      {binding : CursorBinding} {digest : PageDigest} {continuation : Option CursorFrame}
      {result : Option UUID} {next : StoreState codec} (answers : next.answers = state.answers)
      (done : state.store.commitIncidentCursorPage locked committedAt candidate token binding
        digest continuation = .ok (result, next.store)) :
      Moves state (.commit locked committedAt candidate token binding digest continuation) next
  | put {locked : Bool} {clock : Store.PutClock} {victim : Option UUID} {fresh : UUID}
      {request : PutRequest} {bookmark : PublicationBookmark} {next : StoreState codec}
      (answers : next.answers = (request, bookmark) :: state.answers)
      (began : state.now ≤ clock.parentAt) (ordered : clock.ordered)
      (ended : clock.insertedAt = next.now)
      (done : state.store.putPublicationBookmark locked clock victim fresh request.binding
        request.vector request.parent = .ok (bookmark, next.store)) :
      Moves state (.put locked clock victim fresh request) next

def StoreEvent.drawn : StoreEvent → List UUID
  | .create _ _ _ _ token session _ _ => [token, session]
  | .commit _ _ candidate _ _ _ _ => [candidate]
  | .put _ _ _ fresh _ => [fresh]
  | .load _ _ _ | .read _ _ _ => []

theorem StoreState.step_moves {state next : StoreState codec} {event : StoreEvent}
    (stepped : state.step event = some next) :
    state.Moves event next ∧ state.now ≤ next.now ∧ next.issued = event.drawn ++ state.issued ∧
      ∀ id ∈ event.drawn, id ∉ state.issued := by
  cases event with
  | create locked victim sweptAt insertedAt token session binding frame =>
    simp only [step] at stepped
    split at stepped
    next clock =>
      cases stepped
      refine ⟨?_, clock.1.trans clock.2.1, rfl, by simpa [StoreEvent.drawn] using clock.2.2⟩
      cases outcome : state.store.createIncidentCursor locked victim sweptAt insertedAt token
          session binding frame with
      | error error => exact .none rfl rfl
      | ok result => exact .create rfl clock.2.1 outcome
    next => cases stepped
  | load readAt token binding =>
    simp only [step] at stepped
    split at stepped
    next clock =>
      cases stepped
      exact ⟨.none rfl rfl, clock, rfl, by simp [StoreEvent.drawn]⟩
    next => cases stepped
  | commit locked committedAt candidate token binding digest continuation =>
    simp only [step] at stepped
    split at stepped
    next clock =>
      cases stepped
      refine ⟨?_, clock.1, rfl, by simpa [StoreEvent.drawn] using clock.2⟩
      cases outcome : state.store.commitIncidentCursorPage locked committedAt candidate token
          binding digest continuation with
      | error error => exact .none rfl rfl
      | ok result => exact .commit rfl outcome
    next => cases stepped
  | put locked clock victim fresh request =>
    simp only [step] at stepped
    split at stepped
    next ordered =>
      obtain ⟨began, inOrder, unused⟩ := ordered
      have passed : state.now ≤ clock.insertedAt := by
        obtain ⟨first, second, third, fourth⟩ := inOrder
        exact (((began.trans first).trans second).trans third).trans fourth
      cases stepped
      cases outcome : state.store.putPublicationBookmark locked clock victim fresh
          request.binding request.vector request.parent with
      | error error =>
        exact ⟨.none rfl rfl, passed, rfl, by simpa [StoreEvent.drawn] using unused⟩
      | ok result =>
        exact ⟨.put rfl began inOrder rfl outcome, passed, rfl,
          by simpa [StoreEvent.drawn] using unused⟩
    next => cases stepped
  | read readAt token binding =>
    simp only [step] at stepped
    split at stepped
    next clock =>
      cases stepped
      exact ⟨.none rfl rfl, clock, rfl, by simp [StoreEvent.drawn]⟩
    next => cases stepped

section Success

variable {state next : StoreState codec} {after : Store codec}

theorem StoreState.store_commit_of_ok {α : Type} {value : α} {now : Time} {drawn : List UUID}
    {result : Except CursorError (α × Store codec)} (done : result = .ok (value, after)) :
    (state.commit now drawn result).store = after := by
  subst done
  rfl

theorem StoreState.create_store {locked : Bool} {victim : Option UUID} {sweptAt insertedAt : Time}
    {token session : UUID} {binding : CursorBinding} {frame : CursorFrame} {node : CursorNode}
    (stepped : state.step (.create locked victim sweptAt insertedAt token session binding frame) =
      some next)
    (done : state.store.createIncidentCursor locked victim sweptAt insertedAt token session binding
      frame = .ok (node, after)) : next.store = after := by
  simp only [step] at stepped
  split at stepped
  next =>
    cases stepped
    exact store_commit_of_ok done
  next => cases stepped

theorem StoreState.commit_store {locked : Bool} {committedAt : Time} {candidate token : UUID}
    {binding : CursorBinding} {digest : PageDigest} {continuation : Option CursorFrame}
    {result : Option UUID}
    (stepped : state.step (.commit locked committedAt candidate token binding digest
      continuation) = some next)
    (done : state.store.commitIncidentCursorPage locked committedAt candidate token binding digest
      continuation = .ok (result, after)) : next.store = after := by
  simp only [step] at stepped
  split at stepped
  next =>
    cases stepped
    exact store_commit_of_ok done
  next => cases stepped

end Success

end OufMcp.Cursor
