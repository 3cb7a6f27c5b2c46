import OufMcp.Cursor.StoreRun

/-!
# The composers

`CursorComposer` and `PublicationComposer` as concurrent calls.  Between two
transactions of the store a call only reads from the owners and from the status
of MCP itself.  Neither is trusted, so a step of a call is everything up to and
including its next transaction, with the replies chosen by the event.  The nodes
that were ever created and the pages that were committed are kept beside the
store; no step reads them.
-/

namespace OufMcp.Cursor

open Ledger (UUID Time)
open Relational Transition Interaction

structure Caller where
  identity : Identity
  policyRef : String
  manifest : String
  deriving DecidableEq

/-- The status of MCP as `currentSelf` decodes it. -/
structure SelfReply where
  status : Option Status
  partialResult : Bool
  actionRequired : Bool

def currentSelf (reply : Option SelfReply) : Except CursorError (Status × Bool) := do
  let reply ← demand .ownerUnavailable reply
  let status ← demand .ownerUnavailable reply.status
  ensure (reply.partialResult = false) .ownerUnavailable
  pure (status, reply.actionRequired)

variable (codec : Codec)

/-! ## Capturing owner snapshots -/

/-- The page a map lookup yields for an owner that was not read. -/
def CursorOwnerPage.zero : CursorOwnerPage codec where
  truncated := false
  cursor := ""
  nextCursor := ""
  snapshotRef := ""
  itemsDigest := ""
  bookmarkProfile := ""
  publicationBookmark := ""
  parentBookmark := ""
  noPublicationProgress := none
  items := []
  sorted := .nil
  full present := absurd rfl present

def blankFrame (filters : Filters) (pageLimit : Nat) (coverage : Bool) (parent : Option UUID)
    (base : Option PublicationVector) : CursorFrame :=
  ⟨cursorProfile, filters, [], pageLimit, 0, .healthy, false, false, false, coverage, parent, base⟩

def startFrame (publication : Bool) (arguments : Filters) : Except CursorError CursorFrame := do
  let limit ← demand .conflict (operationalQuery codec arguments true)
  let filters ← if publication then canonicalPublicationFilters codec (arguments.erase "limit")
    else pure (arguments.erase "limit")
  pure (blankFrame filters limit publication none none)

/-- What `Resume` checks of its arguments before it loads the bookmark. -/
def resumeLimit (arguments : Filters) : Except CursorError Nat := do
  let limit ← demand .conflict (operationalQuery codec arguments true)
  ensure (∀ key ∈ arguments.keys, key = "limit") .conflict
  pure limit

def resumeFrame (limit : Nat) (retained : PublicationBookmark) :
    Except CursorError CursorFrame := do
  let _ ← canonicalPublicationVector codec retained.vector
  pure (blankFrame retained.vector.filters limit true (some retained.token) (some retained.vector))

def captureScope (frame : CursorFrame) : String :=
  if frame.publicationCoverage then stringValue (frame.filters.lookup "sourceId") else ""

def captureQuery (frame : CursorFrame) (name : Producer) : OwnerQuery :=
  match frame.publicationBase with
  | none => .snapshot frame.filters frame.publicationCoverage
  | some _ => .resumeFrom (publicationOwnerParent frame name)

variable {codec}

def captureOwner (frame : CursorFrame) (name : Producer) : Reading (CursorOwnerPage codec) := do
  let page ← callProducer codec (captureScope frame) (captureQuery frame name) name
  checkCoverage frame name page
  pure page

def CursorFrame.captured (frame : CursorFrame) (self : Status × Bool)
    (gateway ingestion : CursorOwnerPage codec) : CursorFrame :=
  { frame with
    selfStatus := self.1
    selfActionRequired := self.2
    owners := [gateway.position .gateway 0, ingestion.position .ingestion 0] }

def bothPages (gateway ingestion : CursorOwnerPage codec) : Producer → CursorOwnerPage codec
  | .gateway => gateway
  | .ingestion => ingestion

variable (codec) in
/-- Two independent owner snapshots and the frame that points to them. -/
def capture (frame : CursorFrame) (self : Option SelfReply) :
    Reading (CursorFrame × (Producer → CursorOwnerPage codec)) := do
  let gateway ← captureOwner frame .gateway
  let ingestion ← captureOwner frame .ingestion
  let self ← currentSelf self
  let captured := frame.captured self gateway ingestion
  validateCursorFrame codec captured
  pure (captured, bothPages gateway ingestion)

/-! ## Reading the owners back -/

def readBackOwner (frame : CursorFrame) (position : OwnerPosition) :
    Reading (CursorOwnerPage codec) := do
  let page ← readPage codec frame.filters position.name position.cursor frame.publicationCoverage
  checkCoverage frame position.name page
  ensure (sameOwnerPage position page = true) CursorError.conflict
  pure page

def readBackOwners (frame : CursorFrame) :
    List OwnerPosition → (Producer → CursorOwnerPage codec) →
      Reading (Producer → CursorOwnerPage codec)
  | [], pages => pure pages
  | position :: rest, pages => do
      let page ← readBackOwner frame position
      readBackOwners frame rest (Function.update pages position.name page)

variable (codec) in
/-- Even an owner that is done is read again. -/
def readBack (frame : CursorFrame) (self : Option SelfReply) :
    Reading (Producer → CursorOwnerPage codec) := do
  let pages ← readBackOwners frame frame.owners fun _ => .zero codec
  let self ← currentSelf self
  ensure (self = (frame.selfStatus, frame.selfActionRequired)) CursorError.conflict
  pure pages

/-! ## Finishing a page -/

def OwnerPosition.published (owner : OwnerPosition) : PublicationPosition :=
  ⟨owner.name, owner.publicationBookmark, owner.publicationParent, owner.snapshotRef,
    owner.ownerDigest⟩

/-- The owners in the order of the vector. -/
def publishedOwners (frame : CursorFrame) : List PublicationPosition :=
  [Producer.gateway, .ingestion].flatMap fun name =>
    (frame.owners.filter fun owner => decide (owner.name = name)).map OwnerPosition.published

variable (codec) in
/-- The arguments of the put that the finalizer makes. -/
def finalVector (caller : Caller) (frame : CursorFrame) :
    Except CursorError (CursorBinding × PublicationVector) := do
  validateCursorFrame codec frame
  ensure (∀ owner ∈ frame.owners, owner.done = true ∧ owner.publicationBookmark ≠ "") .conflict
  let binding ← bindPublicationBookmark codec caller.identity caller.policyRef caller.manifest
  pure (binding, ⟨publicationVectorProfile, frame.filters, publishedOwners frame⟩)

variable (codec) in
def sealPage (composed : Composition) (node : CursorNode) (bookmark : Option UUID) :
    Except CursorError (CursorPage × Option CursorFrame) := do
  ensure (codec.pageSize (composed.page node bookmark) ≤ 512 * 1024 - 1024) .capacity
  let next ← composed.next
  pure (composed.page node bookmark, next)

/-! ## Calls -/

variable (codec)

/-- A node with the owner pages its frame points to. -/
structure Work where
  caller : Caller
  binding : CursorBinding
  node : CursorNode
  pages : Producer → CursorOwnerPage codec

/-- A composed page, with the replies its refill was made from. -/
structure Draft extends Work codec where
  answer : OwnerRead → OwnerReply
  composed : Composition

/-- What a call still has to do. -/
inductive Phase where
  | idle
  | resuming (caller : Caller) (frame : CursorFrame)
  | loaded (caller : Caller) (binding : CursorBinding) (node : CursorNode)
  | holding (work : Work codec)
  | composed (draft : Draft codec)
  | ready (draft : Draft codec) (page : CursorPage) (continuation : Option CursorFrame)
  | returned (result : Except CursorError (CursorPage × Option UUID))

/-- A page that was committed, with its continuation. -/
structure Delivery extends Draft codec where
  page : CursorPage
  continuation : Option CursorFrame
  next : Option UUID

structure Composers where
  stored : StoreState codec
  calls : Nat → Phase codec
  reads : Nat → Nat
  created : List CursorNode
  log : List (Delivery codec)

/-- What the store draws and reads when it creates a cursor. -/
structure CreateInputs where
  locked : Bool
  victim : Option UUID
  sweptAt : Time
  insertedAt : Time
  token : UUID
  session : UUID

inductive ComposerEvent where
  | start (call : Nat) (caller : Caller) (publication : Bool) (arguments : Filters)
      (answer : OwnerRead → OwnerReply) (self : Option SelfReply) (fresh : CreateInputs)
  | resume (call : Nat) (caller : Caller) (arguments : Filters) (token : UUID) (readAt : Time)
  | recapture (call : Nat) (answer : OwnerRead → OwnerReply) (self : Option SelfReply)
      (fresh : CreateInputs)
  | page (call : Nat) (caller : Caller) (publication : Bool) (token : UUID)
      (readAt checkedAt : Time)
  | readBack (call : Nat) (answer : OwnerRead → OwnerReply) (self : Option SelfReply)
  | compose (call : Nat) (answer : OwnerRead → OwnerReply)
  | finalize (call : Nat) (locked : Bool) (clock : Store.PutClock) (victim : Option UUID)
      (fresh : UUID)
  | commit (call : Nat) (locked : Bool) (committedAt : Time) (candidate : UUID)
  | abandon (call : Nat)

variable {codec}

namespace Composers

def initial (codec : Codec) (now : Time) : Composers codec :=
  ⟨.initial codec now, fun _ => .idle, fun _ => 0, [], []⟩

def enter (state : Composers codec) (call : Nat) (phase : Phase codec) : Composers codec :=
  { state with calls := Function.update state.calls call phase }

def enterOr {α : Type} (state : Composers codec) (call : Nat) (result : Except CursorError α)
    (phase : α → Phase codec) : Composers codec :=
  match result with
  | .ok value => state.enter call (phase value)
  | .error error => state.enter call (.returned (.error error))

def reading {α : Type} (state : Composers codec) (call : Nat) (answer : OwnerRead → OwnerReply)
    (dialogue : Reading α) : Composers codec :=
  { state with
    reads := Function.update state.reads call
      (state.reads call + (dialogue.asked answer).length) }

def create (state : Composers codec) (call : Nat) (caller : Caller) (frame : CursorFrame)
    (answer : OwnerRead → OwnerReply) (self : Option SelfReply) (fresh : CreateInputs) :
    Option (Composers codec) :=
  match bindIncidentCursor codec caller.identity caller.policyRef caller.manifest with
  | .error error => some (state.enter call (.returned (.error error)))
  | .ok binding =>
    let counted := state.reading call answer (capture codec frame self)
    match (capture codec frame self).run answer with
    | .error error => some (counted.enter call (.returned (.error error)))
    | .ok (captured, pages) =>
      (state.stored.step (.create fresh.locked fresh.victim fresh.sweptAt fresh.insertedAt
        fresh.token fresh.session binding captured)).map fun stored =>
          match state.stored.store.createIncidentCursor fresh.locked fresh.victim fresh.sweptAt
              fresh.insertedAt fresh.token fresh.session binding captured with
          | .error error => { counted with stored }.enter call (.returned (.error error))
          | .ok (node, _) =>
            { counted with stored, created := node :: state.created }.enter call
              (.holding ⟨caller, binding, node, pages⟩)

def resume (state : Composers codec) (call : Nat) (caller : Caller) (arguments : Filters)
    (token : UUID) (readAt : Time) : Option (Composers codec) :=
  match resumeLimit codec arguments,
      bindPublicationBookmark codec caller.identity caller.policyRef caller.manifest with
  | .ok limit, .ok binding =>
    (state.stored.step (.read readAt token binding)).map fun stored =>
      { state with stored }.enterOr call (do
        let retained ← state.stored.store.readPublicationBookmark readAt token binding
        resumeFrame codec limit retained) (.resuming caller)
  | .error error, _ | _, .error error => some (state.enter call (.returned (.error error)))

def page (state : Composers codec) (call : Nat) (caller : Caller) (publication : Bool)
    (token : UUID) (readAt checkedAt : Time) : Option (Composers codec) :=
  match bindIncidentCursor codec caller.identity caller.policyRef caller.manifest with
  | .error error => some (state.enter call (.returned (.error error)))
  | .ok binding =>
    (state.stored.step (.load readAt token binding)).map fun stored =>
      { state with stored }.enterOr call (do
        let node ← state.stored.store.loadIncidentCursor readAt token binding
        validateCursorFrame codec node.frame
        ensure (node.frame.publicationCoverage = publication) .conflict
        ensure (checkedAt ≤ node.expiresAt) .expired
        pure node) (.loaded caller binding)

def finalize (state : Composers codec) (call : Nat) (draft : Draft codec) (locked : Bool)
    (clock : Store.PutClock) (victim : Option UUID) (fresh : UUID) : Option (Composers codec) :=
  match finalVector codec draft.caller draft.composed.frame with
  | .error error => some (state.enter call (.returned (.error error)))
  | .ok (binding, vector) =>
    let parent := draft.composed.frame.publicationParent
    (state.stored.step (.put locked clock victim fresh ⟨binding, vector, parent⟩)).map
      fun stored => { state with stored }.enterOr call (do
        let (bookmark, _) ← state.stored.store.putPublicationBookmark locked clock victim fresh
          binding vector parent
        sealPage codec draft.composed draft.node (some bookmark.token))
        fun (page, continuation) => .ready draft page continuation

/-- The node a commit created: none when it repeated an earlier one. -/
def opened (node : CursorNode) (candidate : UUID) :
    Option CursorFrame → Option UUID → List CursorNode
  | some frame, some token =>
    if token = candidate then [⟨candidate, node.session, frame, node.expiresAt⟩] else []
  | _, _ => []

def commit (state : Composers codec) (call : Nat) (draft : Draft codec) (page : CursorPage)
    (continuation : Option CursorFrame) (locked : Bool) (committedAt : Time) (candidate : UUID) :
    Option (Composers codec) :=
  (state.stored.step (.commit locked committedAt candidate draft.node.token draft.binding
    (.of page) continuation)).map fun stored =>
      match state.stored.store.commitIncidentCursorPage locked committedAt candidate
          draft.node.token draft.binding (.of page) continuation with
      | .error error => { state with stored }.enter call (.returned (.error error))
      | .ok (next, _) =>
        { state with
          stored
          created := opened draft.node candidate continuation next ++ state.created
          log := ⟨draft, page, continuation, next⟩ :: state.log }.enter call
            (.returned (.ok (page, next)))

def step (state : Composers codec) : ComposerEvent → Option (Composers codec)
  | .start call caller publication arguments answer self fresh =>
    match state.calls call, startFrame codec publication arguments with
    | .idle, .ok frame => state.create call caller frame answer self fresh
    | .idle, .error error => some (state.enter call (.returned (.error error)))
    | _, _ => none
  | .resume call caller arguments token readAt =>
    match state.calls call with
    | .idle => state.resume call caller arguments token readAt
    | _ => none
  | .recapture call answer self fresh =>
    match state.calls call with
    | .resuming caller frame => state.create call caller frame answer self fresh
    | _ => none
  | .page call caller publication token readAt checkedAt =>
    match state.calls call with
    | .idle => state.page call caller publication token readAt checkedAt
    | _ => none
  | .readBack call answer self =>
    match state.calls call with
    | .loaded caller binding node =>
      some ((state.reading call answer (readBack codec node.frame self)).enterOr call
        ((readBack codec node.frame self).run answer) fun pages =>
          .holding ⟨caller, binding, node, pages⟩)
    | _ => none
  | .compose call answer =>
    match state.calls call with
    | .holding work =>
      some ((state.reading call answer (Cursor.compose work.node.frame work.pages)).enterOr call
        ((Cursor.compose work.node.frame work.pages).run answer) fun composed =>
          .composed ⟨work, answer, composed⟩)
    | _ => none
  | .finalize call locked clock victim fresh =>
    match state.calls call with
    | .composed draft =>
      if draft.composed.final = true then
        state.finalize call draft locked clock victim fresh
      else some (state.enterOr call (sealPage codec draft.composed draft.node none)
        fun (page, continuation) => .ready draft page continuation)
    | _ => none
  | .commit call locked committedAt candidate =>
    match state.calls call with
    | .ready draft page continuation =>
      state.commit call draft page continuation locked committedAt candidate
    | _ => none
  | .abandon call =>
    match state.calls call with
    | .idle | .returned _ => none
    | _ => some (state.enter call (.returned (.error .ownerUnavailable)))

end Composers

/-- Any interleaving of calls of the composers. -/
def composerSystem (codec : Codec) : System (Composers codec) ComposerEvent where
  initial state := ∃ now, state = .initial codec now
  step := Composers.step

end OufMcp.Cursor
