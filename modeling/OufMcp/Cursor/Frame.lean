import Mathlib.Data.List.Sort
import Mathlib.Data.List.Destutter
import OufMcp.Cursor.Incident
import OufMcp.Relational.Transaction

/-!
# Cursor frames, publication vectors and what binds them

The metadata a cursor session keeps between two pages, the checks every frame
passes, and the identity a session is bound to.  SHA-256 is ideal: a digest is
the value whose canonical encoding was hashed.  Parsing and the lengths of
encodings belong to the libraries the source calls and are parameters.
-/

namespace OufMcp.Cursor

open Ledger (UUID Time hexDigest)
open Relational

/-- SHA-256 of the canonical encoding of a value; equal digests have equal contents. -/
structure Digest (α : Type) where
  content : α
  deriving DecidableEq

inductive CursorError where
  | notFound
  | expired
  | conflict
  | capacity
  | ownerUnavailable
  | identityIncomplete
  | storage
  deriving DecidableEq, Repr

inductive Producer where
  | gateway
  | ingestion
  deriving DecidableEq, Repr

def Producer.text : Producer → String
  | .gateway => "GATEWAY"
  | .ingestion => "INGESTION"

inductive Status where
  | healthy
  | recovering
  | degraded
  deriving DecidableEq, Repr

def Status.text : Status → String
  | .healthy => "HEALTHY"
  | .recovering => "RECOVERING"
  | .degraded => "DEGRADED"

abbrev Filters := Item

def cursorProfile : String := "ouf.operational-owner-vector.v1"

def publicationVectorProfile : String := "ouf.operational-publication-vector.v1"

/-! ## Metadata -/

structure PublicationPosition where
  name : Producer
  bookmark : String
  parentBookmark : String
  snapshotRef : String
  itemsDigest : String
  deriving DecidableEq, Repr

structure PublicationVector where
  profile : String
  filters : Filters
  owners : List PublicationPosition
  deriving DecidableEq

structure OwnerPosition where
  name : Producer
  cursor : String
  offset : Nat
  pageIndex : Nat
  itemsDigest : Digest (List Item)
  ownerDigest : String
  snapshotRef : String
  done : Bool
  publicationBookmark : String
  publicationParent : String
  deriving DecidableEq

structure CursorFrame where
  profile : String
  filters : Filters
  owners : List OwnerPosition
  pageLimit : Nat
  pageNumber : Nat
  selfStatus : Status
  selfActionRequired : Bool
  selfConsumed : Bool
  partialResult : Bool
  publicationCoverage : Bool
  publicationParent : Option UUID
  publicationBase : Option PublicationVector
  deriving DecidableEq

structure Coverage where
  kind : String
  scanPending : Bool
  pageComplete : Bool
  ownerCalls : Nat
  atomicAcrossOwners : Bool
  publicationModules : List Producer
  mcpSelfHistoryCovered : Option Bool
  currentUrgentOwnerStateReadRequired : Option Bool
  parentPublicationBookmark : Option UUID
  deriving DecidableEq

/-- A response, without the continuation that its commit adds. -/
structure CursorPage where
  items : List Item
  partialResult : Bool
  truncated : Bool
  cursor : UUID
  snapshotRef : UUID
  expiresAt : Time
  priorityProfile : String
  cursorProfile : String
  consultationRecorded : Bool
  coverage : Coverage
  bookmarkProfile : Option String
  publicationBookmark : Option UUID
  deriving DecidableEq

/-! ## Identity -/

structure IdentityClaims where
  externalRoleRefs : List String
  acr : String
  amr : List String
  authenticatedAt : Time
  deriving DecidableEq, Repr

/-- `orchestration.Identity` without the delegation, which is never serialized. -/
structure Identity where
  principalId : String
  tenantId : String
  servicePrincipalId : String
  actorType : String
  authenticationContextRef : String
  issuer : String
  audience : String
  scopes : List String
  claims : Option IdentityClaims
  deriving DecidableEq, Repr

/-- The two payloads an identity fingerprint is taken of. -/
inductive Evidence where
  | cursor (identity : Identity)
  | publication (fields : List String)
  deriving DecidableEq, Repr

structure CursorBinding where
  principalId : String
  tenantId : String
  fingerprint : Digest Evidence
  policyRef : String
  manifestChecksum : String
  deriving DecidableEq

/-- The library functions the composers call. -/
structure Codec where
  /-- `time.Parse(time.RFC3339Nano, ·)` -/
  parseTime : String → Option Time
  /-- `uuid.Parse` -/
  parseUuid : String → Option UUID
  /-- `UUID.String` -/
  uuidText : UUID → String
  /-- The lengths of encodings. -/
  evidenceSize : Evidence → Nat
  filtersSize : Filters → Nat
  vectorSize : PublicationVector → Nat
  frameSize : CursorFrame → Nat
  pageSize : CursorPage → Nat
  /-- `octet_length(metadata::text)` of what is stored. -/
  storedFrameSize : CursorFrame → Nat
  storedVectorSize : PublicationVector → Nat

variable (codec : Codec)

/-- `sort.Strings` and `slices.Compact` -/
def sortedCompact (texts : List String) : List String :=
  (texts.insertionSort (· ≤ ·)).destutter (· ≠ ·)

def Identity.canonical (identity : Identity) : Identity :=
  { identity with
    scopes := sortedCompact identity.scopes
    claims := identity.claims.map fun claims =>
      { claims with
        externalRoleRefs := sortedCompact claims.externalRoleRefs
        amr := sortedCompact claims.amr } }

def bindIncidentCursor (identity : Identity) (policyRef manifest : String) :
    Except CursorError CursorBinding := do
  ensure (identity.principalId ≠ "" ∧ identity.tenantId ≠ "" ∧ identity.actorType ≠ "" ∧
    policyRef ≠ "" ∧ hexDigest manifest = true) .identityIncomplete
  let payload := Evidence.cursor identity.canonical
  ensure (codec.evidenceSize payload ≤ 16 * 1024) .capacity
  pure ⟨identity.principalId, identity.tenantId, ⟨payload⟩, policyRef, manifest⟩

def bindPublicationBookmark (identity : Identity) (policy manifest : String) :
    Except CursorError CursorBinding := do
  ensure (identity.principalId ≠ "" ∧ identity.tenantId ≠ "" ∧ hexDigest manifest = true ∧
    policy ≠ "" ∧ (identity.actorType = "HUMAN" ∨ identity.actorType = "SERVICE" ∨
      identity.actorType = "AI_AGENT")) .identityIncomplete
  let payload := Evidence.publication [identity.principalId, identity.tenantId,
    identity.actorType, identity.servicePrincipalId, identity.issuer, identity.audience]
  ensure (codec.evidenceSize payload ≤ 16384) .capacity
  pure ⟨identity.principalId, identity.tenantId, ⟨payload⟩, policy, manifest⟩

/-! ## Queries and filters -/

def incidentState (text : String) : Bool :=
  decide (text = "OPEN" ∨ text = "RECOVERING" ∨ text = "RESOLVED")

def queryMember (incidents : Bool) (key : String) (value : Option Value) : Bool :=
  if key = "limit" then
    match value with
    | some (.whole requested) => decide (1 ≤ requested ∧ requested ≤ 100)
    | _ => false
  else if key = "sourceId" then
    decide (stringValue value ≠ "" ∧ (stringValue value).length ≤ 200)
  else if key = "state" then
    incidents && incidentState (stringValue value)
  else if key = "since" then
    decide (stringValue value ≠ "") && (codec.parseTime (stringValue value)).isSome
  else false

def operationalQuery (arguments : Filters) (incidents : Bool) : Option Nat :=
  if ∀ key ∈ arguments.keys, queryMember codec incidents key (arguments.lookup key) = true then
    match arguments.lookup "limit" with
    | some (.whole requested) => some requested.toNat
    | _ => some 50
  else none

/-- `unicode.IsSpace` -/
def isSpace (character : Char) : Bool :=
  decide (character.toNat ∈ [0x09, 0x0a, 0x0b, 0x0c, 0x0d, 0x20, 0x85, 0xa0, 0x1680, 0x2028,
    0x2029, 0x202f, 0x205f, 0x3000]) ||
  decide (0x2000 ≤ character.toNat ∧ character.toNat ≤ 0x200a)

def publicationMember (key : String) (value : Option Value) : Bool :=
  if key = "sourceId" then
    decide (¬ (stringValue value).toList.all isSpace ∧ (stringValue value).length ≤ 200)
  else if key = "state" then incidentState (stringValue value)
  else false

def canonicalPublicationFilters (filters : Filters) : Except CursorError Filters := do
  ensure (codec.filtersSize filters ≤ 4096) .capacity
  ensure (∀ key ∈ filters.keys, publicationMember key (filters.lookup key) = true) .conflict
  pure filters

/-! ## Tokens and vectors -/

/-- `uuid.Parse` accepts the text, and not as the nil UUID. -/
def validToken (value : String) : Bool :=
  match codec.parseUuid value with
  | some parsed => decide (parsed ≠ 0)
  | none => false

def canonicalPublicationToken (value : String) : Bool :=
  match codec.parseUuid value with
  | some parsed => decide (parsed ≠ 0 ∧ codec.uuidText parsed = value)
  | none => false

def PublicationPosition.canonical (position : PublicationPosition) : Bool :=
  canonicalPublicationToken codec position.bookmark &&
    canonicalPublicationToken codec position.snapshotRef &&
    (decide (position.parentBookmark = "") ||
      canonicalPublicationToken codec position.parentBookmark) &&
    hexDigest position.itemsDigest

/-- The vector `DecodePublicationVector` reads back from the canonical encoding. -/
def canonicalPublicationVector (vector : PublicationVector) :
    Except CursorError PublicationVector := do
  ensure (vector.profile = publicationVectorProfile ∧
    vector.owners.map (·.name) = [.gateway, .ingestion]) .conflict
  let canonical ← canonicalPublicationFilters codec vector.filters
  ensure (∀ position ∈ vector.owners, position.canonical codec = true) .conflict
  let normalized := { vector with filters := canonical }
  ensure (codec.vectorSize normalized ≤ 4096) .capacity
  pure normalized

def publicationVectorLineage (previous next : PublicationVector) : Bool :=
  match canonicalPublicationVector codec previous, canonicalPublicationVector codec next with
  | .ok old, .ok current =>
    decide (old.filters = current.filters ∧
      current.owners.map (·.parentBookmark) = old.owners.map (·.bookmark))
  | _, _ => false

def samePublicationBoundaries (previous next : PublicationVector) : Bool :=
  publicationVectorLineage codec previous next &&
    decide (previous.owners.map (·.bookmark) = next.owners.map (·.bookmark))

/-! ## Frames -/

def publicationOwnerParent (frame : CursorFrame) (name : Producer) : String :=
  match frame.publicationBase with
  | none => ""
  | some base =>
    match base.owners.find? fun owner => decide (owner.name = name) with
    | some owner => owner.bookmark
    | none => ""

/-- The publication fields of an owner position under publication coverage. -/
def OwnerPosition.covered (frame : CursorFrame) (owner : OwnerPosition) : Bool :=
  if owner.publicationBookmark ≠ "" then
    canonicalPublicationToken codec owner.publicationBookmark &&
      decide (owner.publicationParent = publicationOwnerParent frame owner.name)
  else !owner.done && decide (owner.publicationParent = "")

def validatePublicationCapture (frame : CursorFrame) : Except CursorError Unit := do
  if frame.publicationCoverage = false then
    ensure (frame.publicationParent = none ∧ frame.publicationBase = none) .conflict
    ensure (∀ owner ∈ frame.owners,
      owner.publicationBookmark = "" ∧ owner.publicationParent = "") .conflict
  else
    let filters ← canonicalPublicationFilters codec frame.filters
    match frame.publicationParent, frame.publicationBase with
    | none, none => pure ()
    | some parent, some base =>
      ensure (parent ≠ 0) .conflict
      let _ ← canonicalPublicationVector codec base
      ensure (canonicalPublicationFilters codec base.filters = .ok filters) .conflict
    | _, _ => .error .conflict
    ensure (∀ owner ∈ frame.owners, owner.covered codec frame = true) .conflict

/-- The checks of one owner position that do not look at the other. -/
def OwnerPosition.valid (owner : OwnerPosition) : Bool :=
  decide (owner.offset ≤ 100 ∧ owner.pageIndex ≤ 200) && hexDigest owner.ownerDigest &&
    validToken codec owner.cursor && validToken codec owner.snapshotRef

def validateCursorFrame (frame : CursorFrame) : Except CursorError Unit := do
  ensure (frame.profile = cursorProfile ∧ 1 ≤ frame.pageLimit ∧ frame.pageLimit ≤ 100 ∧
    frame.pageNumber ≤ 200 ∧ frame.owners.length = 2) .conflict
  ensure ((operationalQuery codec frame.filters true).isSome = true) .conflict
  validatePublicationCapture codec frame
  ensure ((frame.owners.map (·.name)).Nodup ∧
    ∀ owner ∈ frame.owners, owner.valid codec = true) .conflict
  ensure (codec.frameSize frame ≤ 16 * 1024) .capacity

/-! ## The incident MCP reports about itself -/

def mapStatusLifecycle (status : Status) : String :=
  if status = .recovering then "RECOVERING" else "OPEN"

def mapStatusSeverity (status : Status) : String :=
  if status = .degraded then "ERROR" else "WARNING"

def selfIncident (status : Status) (actionRequired : Bool) : Item :=
  [("incident_id", .text "mcp-operational-state"),
    ("module", .text "MCP"),
    ("event_type", .text ("MCP_OPERATIONAL_" ++ status.text)),
    ("lifecycle_state", .text (mapStatusLifecycle status)),
    ("severity", .text (mapStatusSeverity status)),
    ("action_required", .flag actionRequired),
    ("impact_summary", .text ("MCP has governed recovery, debt, evidence or unresolved " ++
      "orchestration state requiring attention.")),
    ("visibility_class", .text "TENANT_OPERATIONAL")].foldr
      (fun (field : String × Value) item => item.insert field.1 field.2) ∅

def selfCursorIncident (frame : CursorFrame) : Option Item :=
  if frame.selfConsumed = true ∨ frame.selfStatus = .healthy then none
  else some (selfIncident frame.selfStatus frame.selfActionRequired)

end OufMcp.Cursor
