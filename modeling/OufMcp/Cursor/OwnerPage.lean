import OufMcp.Cursor.Frame
import OufMcp.Interaction.Dialogue

/-!
# Pages of the incident owners

What an owner may answer, what `decodeCursorOwnerPage` accepts of it, and the
governed reads of the composers.  An accepted page carries the facts the merge
rests on: its items are in priority order and only a full page has a successor.
Owners are not trusted, so a read is a question that any reply may answer.
-/

namespace OufMcp.Cursor

open Ledger (Time hexDigest)
open Relational Interaction

/-- The members of an owner page that are kept as they are. -/
structure OwnerEnvelope where
  truncated : Bool
  cursor : String
  nextCursor : String
  snapshotRef : String
  itemsDigest : String
  bookmarkProfile : String
  publicationBookmark : String
  parentBookmark : String
  noPublicationProgress : Option Bool
  deriving DecidableEq

/-- The body of an owner reply after JSON decoding. -/
structure OwnerBody extends OwnerEnvelope where
  /-- At most 512 KiB, and the decoder accepts it. -/
  readable : Bool
  /-- No object in it has two members of one name. -/
  unique : Bool
  items : Option (List (Option Item))
  partialResult : Option Bool
  expiresAt : Time
  snapshotExpiresAt : Time
  priorityProfile : String
  cursorProfile : String
  consultationRecorded : Bool

variable (codec : Codec)

/-- An owner page that was accepted. -/
structure CursorOwnerPage extends OwnerEnvelope where
  items : List Item
  sorted : items.IsChain fun earlier later =>
    incidentBefore codec.parseTime later earlier = false
  full : nextCursor ≠ "" → items.length = 100

/-! ## Decoding -/

def cursorIncidentField (field : String) : Bool :=
  decide (field ∈ ["incident_id", "module", "event_type", "lifecycle_state", "severity",
    "first_seen_at", "last_seen_at", "resolved_at", "correlation_id", "endpoint_ref",
    "error_code", "impact_summary", "action_required", "dedup_key", "occurrence_count",
    "visibility_class", "job_ref", "source_ref", "authorization_decision_ref"])

def incidentId (item : Item) : String := incidentField item "incident_id" "incidentId"

def decodeIncident (name : Producer) (entry : Option Item) : Except CursorError Item := do
  let item ← demand .conflict entry
  ensure (∀ field ∈ item.keys, cursorIncidentField field = true) .conflict
  ensure (∀ label ∈ item.lookup "module", label = Value.text name.text) .conflict
  let labelled := item.insert "module" (.text name.text)
  ensure (incidentId labelled ≠ "" ∧
    severityRank (stringValue (labelled.lookup "severity")) ≠ 0 ∧
    incidentState (incidentField labelled "lifecycle_state" "lifecycleState") = true) .conflict
  match incidentValue labelled "action_required" "actionRequired" with
  | some (.flag _) => pure labelled
  | _ => .error .conflict

def decodeCursorOwnerPage (now : Time) (body : OwnerBody) (name : Producer) :
    Except CursorError (CursorOwnerPage codec) := do
  ensure (body.readable = true) .ownerUnavailable
  ensure (body.unique = true) .conflict
  let expiresAt := if name = .ingestion then body.snapshotExpiresAt else body.expiresAt
  let entries ← demand .ownerUnavailable body.items
  ensure (body.partialResult = some false ∧ body.consultationRecorded = false ∧
    entries.length ≤ 100 ∧ body.priorityProfile = "ouf.incident-priority.v1" ∧
    body.cursorProfile = "ouf.incident-owner-cursor.v1" ∧ hexDigest body.itemsDigest = true ∧
    now ≤ expiresAt) .ownerUnavailable
  ensure (validToken codec body.cursor = true ∧ validToken codec body.snapshotRef = true) .conflict
  ensure (body.truncated = decide (body.nextCursor ≠ "")) .conflict
  ensure (body.nextCursor ≠ "" → validToken codec body.nextCursor = true ∧
    body.nextCursor ≠ body.cursor) .conflict
  let items ← entries.mapM (decodeIncident name)
  ensure ((items.map incidentId).Nodup) .conflict
  if proper : (items.IsChain fun earlier later =>
      incidentBefore codec.parseTime later earlier = false) ∧
      (body.nextCursor ≠ "" → items.length = 100) then
    pure { body.toOwnerEnvelope with items, sorted := proper.1, full := proper.2 }
  else .error .conflict

variable {codec} in
theorem decodeCursorOwnerPage_eq_ok {now : Time} {body : OwnerBody} {name : Producer}
    {page : CursorOwnerPage codec}
    (accepted : decodeCursorOwnerPage codec now body name = .ok page) :
    body.readable = true ∧ body.unique = true ∧ page.toOwnerEnvelope = body.toOwnerEnvelope ∧
      (page.nextCursor ≠ "" → page.nextCursor ≠ page.cursor) ∧
      ∃ entries, body.items = some entries ∧
        entries.mapM (decodeIncident name) = .ok page.items := by
  simp only [decodeCursorOwnerPage, bind_eq_ok, ensure_eq_ok, demand_eq_ok] at accepted
  obtain ⟨_, readable, _, unique, entries, found, _, -, _, -, _, -, _, next, items, decoded, _, -,
    rest⟩ := accepted
  split at rest
  next =>
    cases rest
    exact ⟨readable, unique, rfl, fun more => (next more).2, entries, found, decoded⟩
  next => cases rest

/-! ## Positions on a page -/

variable {codec} in
def CursorOwnerPage.position (page : CursorOwnerPage codec) (name : Producer) (index : Nat) :
    OwnerPosition where
  name := name
  cursor := page.cursor
  offset := 0
  pageIndex := index
  itemsDigest := ⟨page.items⟩
  ownerDigest := page.itemsDigest
  snapshotRef := page.snapshotRef
  done := false
  publicationBookmark := page.publicationBookmark
  publicationParent := page.parentBookmark

variable {codec} in
def sameOwnerPage (position : OwnerPosition) (page : CursorOwnerPage codec) : Bool :=
  let observed := page.position position.name position.pageIndex
  decide (position.cursor = observed.cursor ∧ position.snapshotRef = observed.snapshotRef ∧
    position.itemsDigest = observed.itemsDigest ∧ position.ownerDigest = observed.ownerDigest ∧
    position.offset ≤ page.items.length ∧
    position.publicationBookmark = observed.publicationBookmark ∧
    position.publicationParent = observed.publicationParent)

variable {codec} in
def validatePublicationPage (page : CursorOwnerPage codec) (frame : CursorFrame)
    (name : Producer) : Except CursorError Unit := do
  ensure (page.bookmarkProfile = "ouf.owner-publication-bookmark.v1" ∧
    canonicalPublicationToken codec page.cursor = true ∧
    canonicalPublicationToken codec page.snapshotRef = true ∧
    (page.nextCursor ≠ "" → canonicalPublicationToken codec page.nextCursor = true)) .conflict
  let expected := publicationOwnerParent frame name
  if page.nextCursor = "" then
    ensure (canonicalPublicationToken codec page.publicationBookmark = true ∧
      page.parentBookmark = expected) .conflict
    let unchanged := decide (expected ≠ "" ∧ page.publicationBookmark = expected)
    ensure (page.noPublicationProgress = some unchanged) .conflict
  else
    ensure (page.publicationBookmark = "" ∧ page.parentBookmark = "" ∧
      page.noPublicationProgress = none) .conflict

/-! ## Governed reads -/

/-- The arguments of an owner read; a capture asks for the largest page. -/
inductive OwnerQuery where
  | snapshot (filters : Filters) (coverage : Bool)
  | resumeFrom (bookmark : String)
  | cursor (token : String) (coverage : Bool)
  deriving DecidableEq

structure OwnerRead where
  producer : Producer
  query : OwnerQuery
  sourceRef : Option String
  deriving DecidableEq

/-- A reply that reached the composer, and when it was decoded. -/
structure OwnerReply where
  body : Option OwnerBody
  decodedAt : Time

abbrev Reading := Dialogue OwnerRead OwnerReply CursorError

/-- Gateway faults are platform scoped; a source filter concerns ingestion only. -/
def producerRead (scopeSource : String) (query : OwnerQuery) (producer : Producer) :
    Option OwnerRead :=
  let saved := if scopeSource = "" then none else some scopeSource
  match producer, query with
  | .gateway, .snapshot filters coverage =>
    some ⟨.gateway, .snapshot (filters.erase "sourceId") coverage, none⟩
  | .gateway, query => some ⟨.gateway, query, none⟩
  | .ingestion, .snapshot filters coverage =>
    match filters.lookup "sourceId" with
    | none => some ⟨.ingestion, .snapshot filters coverage, saved⟩
    | some source =>
      if stringValue (some source) = "" then none
      else some ⟨.ingestion, .snapshot filters coverage, some (stringValue (some source))⟩
  | .ingestion, query => some ⟨.ingestion, query, saved⟩

def callProducer (scopeSource : String) (query : OwnerQuery) (producer : Producer) :
    Reading (CursorOwnerPage codec) := do
  let read ← demand CursorError.ownerUnavailable (producerRead scopeSource query producer)
  let reply ← Dialogue.query read
  let body ← demand CursorError.ownerUnavailable reply.body
  decodeCursorOwnerPage codec reply.decodedAt body producer

def savedSource (filters : Filters) : Except CursorError String :=
  match filters.lookup "sourceId" with
  | none => pure ""
  | some (.text source) => pure source
  | some _ => .error .conflict

def readPage (filters : Filters) (name : Producer) (token : String) (coverage : Bool) :
    Reading (CursorOwnerPage codec) := do
  let scopeSource ← savedSource filters
  callProducer codec scopeSource (.cursor token coverage) name

end OufMcp.Cursor
