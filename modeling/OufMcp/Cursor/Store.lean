import OufMcp.Cursor.Compose

/-!
# The cursor and bookmark store

The transactions of the store that keep cursor sessions and publication
bookmarks.  Writers take an advisory lock for their whole transaction, so each
one is a single step; a transaction that returns an error is rolled back.  Rows
a statement skips because they are locked, the clock and generated identifiers
are inputs.
-/

namespace OufMcp.Cursor

open Ledger (UUID Time hexDigest)
open Relational

/-- A page digest: that of a response, or any other text. -/
inductive PageDigest where
  | of (page : CursorPage)
  | text (value : String)
  deriving DecidableEq

def PageDigest.sized : PageDigest → Bool
  | .of _ => true
  | .text value => decide (value.utf8ByteSize = 64)

def PageDigest.proper : PageDigest → Bool
  | .of _ => true
  | .text value => hexDigest value

/-! ## Rows -/

/-- `operational_cursor_session` -/
structure CursorSession where
  binding : CursorBinding
  expiresAt : Time
  deriving DecidableEq

def operationalCursorSession : Schema CursorSession where
  check _ := true
  clash _ _ := false

/-- `operational_cursor_node` -/
structure CursorNodeRow where
  session : UUID
  pageNumber : Nat
  metadata : CursorFrame
  pageDigest : Option PageDigest
  nextToken : Option UUID
  deriving DecidableEq

variable (codec : Codec)

def operationalCursorNode : Schema CursorNodeRow where
  check row :=
    decide (row.pageNumber ≤ 200 ∧ codec.storedFrameSize row.metadata ≤ 16384)
      && row.pageDigest.all PageDigest.proper
  clash a b :=
    decide (a.session = b.session ∧ a.pageNumber = b.pageNumber)
      || (a.nextToken.isSome && decide (a.nextToken = b.nextToken))

/-- `operational_publication_bookmark` -/
structure BookmarkRow where
  parentToken : Option UUID
  binding : CursorBinding
  scopeDigest : Digest Filters
  vectorDigest : Digest (List String)
  metadata : PublicationVector
  createdAt : Time
  expiresAt : Time
  deriving DecidableEq

def operationalPublicationBookmark : Schema BookmarkRow where
  check row := decide (codec.storedVectorSize row.metadata ≤ 4096)
  clash _ _ := false

structure Store where
  sessions : Table UUID operationalCursorSession
  nodes : Table UUID (operationalCursorNode codec)
  bookmarks : Table UUID (operationalPublicationBookmark codec)

def Store.empty : Store codec := ⟨.empty, .empty, .empty⟩

def validCursorBinding (binding : CursorBinding) : Bool :=
  decide (binding.principalId ≠ "" ∧ binding.principalId.utf8ByteSize ≤ 200 ∧
    binding.tenantId ≠ "" ∧ binding.tenantId.utf8ByteSize ≤ 200 ∧
    binding.policyRef ≠ "" ∧ binding.policyRef.utf8ByteSize ≤ 512 ∧
    hexDigest binding.manifestChecksum = true)

/-! ## Capacity -/

/-- How many bindings there are, of one tenant, and of one tenant and principal. -/
structure Tally where
  total : Nat
  tenant : Nat
  principal : Nat
  deriving DecidableEq

def tally (bindings : List CursorBinding) (tenantId principalId : String) : Tally where
  total := bindings.length
  tenant := bindings.countP fun held => decide (held.tenantId = tenantId)
  principal := bindings.countP fun held =>
    decide (held.tenantId = tenantId ∧ held.principalId = principalId)

def Tally.below (counts limits : Tally) : Prop :=
  counts.total < limits.total ∧ counts.tenant < limits.tenant ∧
    counts.principal < limits.principal

instance (counts limits : Tally) : Decidable (counts.below limits) :=
  inferInstanceAs (Decidable (_ ∧ _ ∧ _))

def sessionLimits : Tally := ⟨4096, 128, 16⟩
def nodeLimits : Tally := ⟨32768, 4096, 800⟩
def bookmarkLimits : Tally := ⟨32768, 4096, 512⟩

/-! ## Continuations -/

/-- A continuation is checked before the transaction begins. -/
def validateNext : Option CursorFrame → Except CursorError Unit
  | some frame => validateCursorFrame codec frame
  | none => pure ()

/-- What a position may turn into from one page to the next. -/
def OwnerPosition.continues (previous current : OwnerPosition) : Bool :=
  decide (current.snapshotRef = previous.snapshotRef) && (!previous.done || current.done) &&
    (decide (previous.publicationBookmark = "") ||
      decide (previous.publicationBookmark = current.publicationBookmark ∧
        previous.publicationParent = current.publicationParent)) &&
    decide (previous.pageIndex ≤ current.pageIndex ∧
      current.pageIndex ≤ previous.pageIndex + 1) &&
    (decide (current.pageIndex ≠ previous.pageIndex) ||
      decide (current.cursor = previous.cursor ∧ current.itemsDigest = previous.itemsDigest ∧
        current.ownerDigest = previous.ownerDigest ∧ previous.offset ≤ current.offset))

def sameCursorScope (old next : CursorFrame) : Bool :=
  decide (old.publicationCoverage = next.publicationCoverage ∧
    old.publicationParent = next.publicationParent ∧
    old.publicationBase = next.publicationBase ∧ old.filters = next.filters ∧
    old.profile = next.profile ∧ old.pageLimit = next.pageLimit ∧
    old.selfStatus = next.selfStatus ∧ old.selfActionRequired = next.selfActionRequired) &&
  (!old.partialResult || next.partialResult) && (!old.selfConsumed || next.selfConsumed) &&
  old.owners.all fun previous =>
    match (next.owners.filter fun current => decide (current.name = previous.name)).getLast? with
    | some current => previous.continues current
    | none => false

namespace Store

variable {codec}

def sessionBindings (store : Store codec) : List CursorBinding :=
  store.sessions.toList.map fun entry => entry.2.binding

def nodeBindings (store : Store codec) : List CursorBinding :=
  store.nodes.toList.filterMap fun entry =>
    (store.sessions.get entry.2.session).map (·.binding)

def bookmarkBindings (store : Store codec) : List CursorBinding :=
  store.bookmarks.toList.map fun entry => entry.2.binding

def cursorNodeCapacity (store : Store codec) (binding : CursorBinding) :
    Except CursorError Unit :=
  ensure ((tally store.nodeBindings binding.tenantId binding.principalId).below nodeLimits)
    .capacity

/-! ## Cursor sessions -/

/-- Delete an expired session and its nodes, unless every expired one is skipped. -/
def expireSession (store : Store codec) (now : Time) (victim : Option UUID) :
    Except CursorError (Store codec) :=
  match victim with
  | none => pure store
  | some session => do
      let row ← demand .storage (store.sessions.get session)
      ensure (row.expiresAt ≤ now) .storage
      pure { store with
        sessions := store.sessions.retain fun key _ => decide (key ≠ session)
        nodes := store.nodes.retain fun _ node => decide (node.session ≠ session) }

/-- `interval '30 minutes'` -/
def cursorLifetime : Time := 30 * 60 * 1000000000

def createIncidentCursor (store : Store codec) (locked : Bool) (victim : Option UUID)
    (sweptAt insertedAt : Time) (token session : UUID) (binding : CursorBinding)
    (frame : CursorFrame) : Except CursorError (CursorNode × Store codec) := do
  ensure (validCursorBinding binding = true ∧ frame.pageNumber = 0) .conflict
  validateCursorFrame codec frame
  ensure (locked = true) .capacity
  let swept ← store.expireSession sweptAt victim
  ensure ((tally swept.sessionBindings binding.tenantId binding.principalId).below sessionLimits)
    .capacity
  swept.cursorNodeCapacity binding
  let expiresAt := insertedAt + cursorLifetime
  let sessions ← demand .storage (swept.sessions.insert? session ⟨binding, expiresAt⟩)
  let nodes ← demand .storage (swept.nodes.insert? token ⟨session, 0, frame, none, none⟩)
  pure (⟨token, session, frame, expiresAt⟩, { swept with sessions, nodes })

def findNode (store : Store codec) (token : UUID) (binding : CursorBinding) :
    Option (CursorNodeRow × CursorSession) := do
  let node ← store.nodes.get token
  let session ← store.sessions.get node.session
  if session.binding = binding then some (node, session) else none

def loadIncidentCursor (store : Store codec) (now : Time) (token : UUID)
    (binding : CursorBinding) : Except CursorError CursorNode := do
  ensure (validCursorBinding binding = true ∧ token ≠ 0) .notFound
  let (node, session) ← demand .notFound (store.findNode token binding)
  ensure (session.expiresAt > now) .expired
  ensure (codec.storedFrameSize node.metadata ≤ 16 * 1024) .conflict
  validateCursorFrame codec node.metadata
  pure ⟨token, node.session, node.metadata, session.expiresAt⟩

def commitIncidentCursorPage (store : Store codec) (locked : Bool) (now : Time)
    (candidate token : UUID) (binding : CursorBinding) (digest : PageDigest)
    (next : Option CursorFrame) : Except CursorError (Option UUID × Store codec) := do
  ensure (digest.sized = true ∧ validCursorBinding binding = true) .conflict
  validateNext codec next
  ensure (locked = true) .capacity
  let (node, session) ← demand .notFound (store.findNode token binding)
  ensure (session.expiresAt > now) .notFound
  match node.pageDigest, next with
  | some existing, none =>
    ensure (existing = digest ∧ node.nextToken = none) .conflict
    pure (none, store)
  | some existing, some frame =>
    ensure (existing = digest) .conflict
    let nextToken ← demand .conflict node.nextToken
    let retained ← demand .storage (store.nodes.get nextToken)
    ensure (retained.metadata = frame) .conflict
    pure (some nextToken, store)
  | none, none =>
    let nodes ← demand .storage (store.nodes.put? token { node with pageDigest := some digest })
    pure (node.nextToken, { store with nodes })
  | none, some frame =>
    ensure (frame.pageNumber = node.pageNumber + 1 ∧
      sameCursorScope node.metadata frame = true) .conflict
    store.cursorNodeCapacity binding
    let inserted ← demand .storage (store.nodes.insert? candidate
      ⟨node.session, frame.pageNumber, frame, none, none⟩)
    let nodes ← demand .storage (inserted.put? token
      { node with pageDigest := some digest, nextToken := some candidate })
    pure (some candidate, { store with nodes })

end Store

/-! ## Publication bookmarks -/

def publicationHashes (vector : PublicationVector) :
    Except CursorError (Digest Filters × Digest (List String)) := do
  let normalized ← canonicalPublicationVector codec vector
  pure (⟨normalized.filters⟩, ⟨normalized.owners.map (·.bookmark)⟩)

structure PublicationBookmark where
  token : UUID
  parent : Option UUID
  vector : PublicationVector
  expiresAt : Time
  deriving DecidableEq

namespace Store

variable {codec}

def loadPublicationBookmark (store : Store codec) (now : Time) (token : UUID)
    (binding : CursorBinding) : Except CursorError PublicationBookmark := do
  let row ← demand .notFound (store.bookmarks.get token)
  ensure (row.binding.principalId = binding.principalId ∧
    row.binding.tenantId = binding.tenantId ∧
    row.binding.fingerprint = binding.fingerprint) .notFound
  ensure (row.binding.policyRef = binding.policyRef ∧
    row.binding.manifestChecksum = binding.manifestChecksum) .conflict
  ensure (row.expiresAt > now) .expired
  ensure (codec.storedVectorSize row.metadata ≤ 4096) .capacity
  let vector ← canonicalPublicationVector codec row.metadata
  let hashes ← publicationHashes codec vector
  ensure (hashes = (row.scopeDigest, row.vectorDigest)) .conflict
  pure ⟨token, row.parentToken, vector, row.expiresAt⟩

/-- `Store.LoadPublicationBookmark` -/
def readPublicationBookmark (store : Store codec) (now : Time) (token : UUID)
    (binding : CursorBinding) : Except CursorError PublicationBookmark := do
  ensure (validCursorBinding binding = true ∧ token ≠ 0) .notFound
  store.loadPublicationBookmark now token binding

/-- Delete an expired bookmark, unless every expired one is skipped. -/
def expireBookmark (store : Store codec) (now : Time) (victim : Option UUID) :
    Except CursorError (Store codec) :=
  match victim with
  | none => pure store
  | some token => do
      let row ← demand .storage (store.bookmarks.get token)
      ensure (row.expiresAt ≤ now) .storage
      pure { store with
        bookmarks := store.bookmarks.retain fun key _ => decide (key ≠ token) }

/-- The readings of the clock in one `PutPublicationBookmark`. -/
structure PutClock where
  parentAt : Time
  selectedAt : Time
  reloadedAt : Time
  sweptAt : Time
  insertedAt : Time
  deriving DecidableEq

/-- The live bookmarks for the same boundaries on the same parent, oldest first. -/
def equivalentBookmarks (store : Store codec) (now : Time) (binding : CursorBinding)
    (hashes : Digest Filters × Digest (List String)) (parent : Option UUID) : List UUID :=
  let rows := store.bookmarks.select fun _ row =>
    decide (row.binding = binding ∧ row.scopeDigest = hashes.1 ∧ row.vectorDigest = hashes.2 ∧
      row.parentToken = parent ∧ row.expiresAt > now)
  (rows.insertionSort fun a b =>
    a.2.createdAt < b.2.createdAt ∨ (a.2.createdAt = b.2.createdAt ∧ a.1 ≤ b.1)).map (·.1)

/-- `interval '90 days'` -/
def bookmarkLifetime : Time := 90 * 24 * 60 * 60 * 1000000000

/-- A vector without a parent names no owner parent; one with a parent continues it.
Returns the parent when its boundaries are those of the vector. -/
def publicationParent (store : Store codec) (now : Time) (binding : CursorBinding)
    (vector : PublicationVector) (parent : Option UUID) :
    Except CursorError (Option PublicationBookmark) :=
  match parent with
  | some token => do
      let old ← store.loadPublicationBookmark now token binding
      ensure (publicationVectorLineage codec old.vector vector = true) .conflict
      pure (if samePublicationBoundaries codec old.vector vector then some old else none)
  | none => do
      ensure (∀ position ∈ vector.owners, position.parentBookmark = "") .conflict
      pure none

def putPublicationBookmark (store : Store codec) (locked : Bool) (clock : PutClock)
    (victim : Option UUID) (fresh : UUID) (binding : CursorBinding) (vector : PublicationVector)
    (parent : Option UUID) : Except CursorError (PublicationBookmark × Store codec) := do
  ensure (validCursorBinding binding = true ∧ parent ≠ some 0) .conflict
  let normalized ← canonicalPublicationVector codec vector
  let hashes ← publicationHashes codec normalized
  ensure (locked = true) .capacity
  match ← store.publicationParent clock.parentAt binding normalized parent with
  | some old => pure (old, store)
  | none =>
    match store.equivalentBookmarks clock.selectedAt binding hashes parent with
    | token :: _ =>
      let old ← store.loadPublicationBookmark clock.reloadedAt token binding
      pure (old, store)
    | [] =>
      let swept ← store.expireBookmark clock.sweptAt victim
      ensure ((tally swept.bookmarkBindings binding.tenantId binding.principalId).below
        bookmarkLimits) .capacity
      let expiresAt := clock.insertedAt + bookmarkLifetime
      let bookmarks ← demand .storage (swept.bookmarks.insert? fresh
        ⟨parent, binding, hashes.1, hashes.2, normalized, clock.insertedAt, expiresAt⟩)
      pure (⟨fresh, parent, normalized, expiresAt⟩, { swept with bookmarks })

end Store

end OufMcp.Cursor
