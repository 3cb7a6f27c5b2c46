import OufMcp.Cursor.OwnerPage

/-!
# Composing one page

`CursorComposer.compose` up to its commit: a merge of the owner pages and of the
incident MCP reports about itself.  A call that has read both owners may refill
one page; where it would need a second refill the head of an owner is unknown and
the page ends early.
-/

namespace OufMcp.Cursor

open Ledger (UUID Time)
open Relational Interaction

structure CursorNode where
  token : UUID
  session : UUID
  frame : CursorFrame
  expiresAt : Time
  deriving DecidableEq

variable (codec : Codec)

/-- The variables of the merge loop. -/
structure Progress where
  frame : CursorFrame
  pages : Producer → CursorOwnerPage codec
  calls : Nat
  items : List Item
  scanPending : Bool

/-- What one pass over the owners leaves behind. -/
structure Heads where
  owners : List OwnerPosition
  pages : Producer → CursorOwnerPage codec
  calls : Nat
  unknownHead : Bool

/-- What a call has composed before it commits. -/
structure Composition where
  frame : CursorFrame
  items : List Item
  scanPending : Bool
  more : Bool
  calls : Nat

variable {codec}

/-- The publication members of a page are looked at under publication coverage only. -/
def checkCoverage (frame : CursorFrame) (name : Producer) (page : CursorOwnerPage codec) :
    Except CursorError Unit :=
  if frame.publicationCoverage = true then validatePublicationPage page frame name else pure ()

/-- The tests on the page that follows `page`. -/
def checkRefill (frame : CursorFrame) (position : OwnerPosition)
    (page next : CursorOwnerPage codec) : Except CursorError Unit := do
  checkCoverage frame position.name next
  ensure (next.snapshotRef = position.snapshotRef ∧ next.cursor = page.nextCursor)
    CursorError.conflict
  ensure (∀ last ∈ page.items.getLast?, ∀ head ∈ next.items.head?,
    incidentBefore codec.parseTime head last = false) CursorError.conflict

def refill (frame : CursorFrame) (position : OwnerPosition) (page : CursorOwnerPage codec) :
    Reading (CursorOwnerPage codec) := do
  ensure (position.pageIndex < 200) CursorError.capacity
  let next ← readPage codec frame.filters position.name page.nextCursor frame.publicationCoverage
  checkRefill frame position page next
  pure next

def OwnerPosition.refilled (position : OwnerPosition) (next : CursorOwnerPage codec) :
    OwnerPosition :=
  { next.position position.name (position.pageIndex + 1) with done := next.items.isEmpty }

def Heads.cons (position : OwnerPosition) (heads : Heads codec) : Heads codec :=
  { heads with owners := position :: heads.owners }

/-- Make the head of every owner known, as far as the read bound allows. -/
def fillHeads (frame : CursorFrame) :
    List OwnerPosition → (Producer → CursorOwnerPage codec) → Nat → Reading (Heads codec)
  | [], pages, calls => pure ⟨[], pages, calls, false⟩
  | position :: rest, pages, calls => do
      let page := pages position.name
      if position.done = true ∨ position.offset < page.items.length then
        let heads ← fillHeads frame rest pages calls
        pure (heads.cons position)
      else if page.nextCursor = "" then
        let heads ← fillHeads frame rest pages calls
        pure (heads.cons { position with done := true })
      else if 3 ≤ calls then
        pure ⟨position :: rest, pages, calls, true⟩
      else
        let next ← refill frame position page
        let heads ← fillHeads frame rest (Function.update pages position.name next) (calls + 1)
        pure (heads.cons (position.refilled next))

/-- The best head among the owners from `index` on and the best one so far. -/
def bestHead (pages : Producer → CursorOwnerPage codec) :
    Nat → Option (Nat × Item) → List OwnerPosition → Except CursorError (Option (Nat × Item))
  | _, best, [] => pure best
  | index, best, position :: rest =>
    if position.done = true then bestHead pages (index + 1) best rest
    else
      match (pages position.name).items[position.offset]? with
      | none => .error .conflict
      | some item =>
        match best with
        | none => bestHead pages (index + 1) (some (index, item)) rest
        | some (winner, candidate) =>
          if incidentBefore codec.parseTime item candidate = true then
            bestHead pages (index + 1) (some (index, item)) rest
          else bestHead pages (index + 1) (some (winner, candidate)) rest

variable (codec) in
def selfFirst (frame : CursorFrame) (best : Option (Nat × Item)) : Option Item :=
  (selfCursorIncident frame).filter fun self =>
    match best with
    | none => true
    | some (_, candidate) => incidentBefore codec.parseTime self candidate

def OwnerPosition.consume (position : OwnerPosition) : OwnerPosition :=
  { position with offset := position.offset + 1 }

/-- The merge loop, while there is room for more items. -/
def mergeItems : Nat → Progress codec → Reading (Progress codec)
  | 0, progress => pure progress
  | room + 1, progress => do
      let heads ← fillHeads progress.frame progress.frame.owners progress.pages progress.calls
      let frame := { progress.frame with owners := heads.owners }
      if heads.unknownHead = true then
        pure { progress with
          frame, pages := heads.pages, calls := heads.calls, scanPending := true }
      else
        let best ← bestHead heads.pages 0 none heads.owners
        match selfFirst codec frame best, best with
        | some self, _ =>
          mergeItems room { progress with
            frame := { frame with selfConsumed := true }
            pages := heads.pages, calls := heads.calls, items := progress.items ++ [self] }
        | none, none =>
          pure { progress with frame, pages := heads.pages, calls := heads.calls }
        | none, some (winner, candidate) =>
          mergeItems room { progress with
            frame := { frame with owners := heads.owners.modify winner OwnerPosition.consume }
            pages := heads.pages, calls := heads.calls, items := progress.items ++ [candidate] }

/-- Owners whose last page is used up are done. -/
def OwnerPosition.settle (page : CursorOwnerPage codec) (position : OwnerPosition) :
    OwnerPosition :=
  if position.offset = page.items.length ∧ page.nextCursor = "" then
    { position with done := true }
  else position

def CursorFrame.more (frame : CursorFrame) : Bool :=
  (selfCursorIncident frame).isSome || frame.owners.any fun position => !position.done

def Progress.finish (progress : Progress codec) : Composition :=
  let owners := progress.frame.owners.map fun position =>
    position.settle (progress.pages position.name)
  let frame := { progress.frame with owners }
  { frame, items := progress.items, scanPending := progress.scanPending, more := frame.more,
    calls := progress.calls }

/-- Merge one page out of a frame and the owner pages it points to. -/
def compose (frame : CursorFrame) (pages : Producer → CursorOwnerPage codec) :
    Reading Composition := do
  let progress ← mergeItems frame.pageLimit ⟨frame, pages, 2, [], false⟩
  pure progress.finish

/-! ## The response -/

def Composition.final (composed : Composition) : Bool :=
  composed.frame.publicationCoverage && !composed.more && !composed.scanPending

def Composition.page (composed : Composition) (node : CursorNode) (bookmark : Option UUID) :
    CursorPage where
  items := composed.items
  partialResult := false
  truncated := composed.more
  cursor := node.token
  snapshotRef := node.session
  expiresAt := node.expiresAt
  priorityProfile := "ouf.incident-priority.v1"
  cursorProfile := Cursor.cursorProfile
  consultationRecorded := false
  coverage :=
    { kind := "INDEPENDENT_OWNER_SNAPSHOT_VECTOR"
      scanPending := composed.scanPending
      pageComplete := !composed.scanPending
      ownerCalls := composed.calls
      atomicAcrossOwners := false
      publicationModules :=
        if composed.frame.publicationCoverage then [.gateway, .ingestion] else []
      mcpSelfHistoryCovered := if composed.frame.publicationCoverage then some false else none
      currentUrgentOwnerStateReadRequired :=
        if composed.frame.publicationCoverage then some true else none
      parentPublicationBookmark :=
        if composed.frame.publicationCoverage then composed.frame.publicationParent else none }
  bookmarkProfile :=
    if composed.frame.publicationCoverage then some publicationVectorProfile else none
  publicationBookmark := bookmark

def Composition.next (composed : Composition) : Except CursorError (Option CursorFrame) := do
  if composed.more = true then
    ensure (composed.frame.pageNumber < 200) .capacity
    pure (some { composed.frame with pageNumber := composed.frame.pageNumber + 1 })
  else pure none

end OufMcp.Cursor
