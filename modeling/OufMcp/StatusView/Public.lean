import OufMcp.Cursor.Frame
import OufMcp.Json.Decode

/-!
# The public view of the system status

`statusview.Project`: four fields of a status document are kept and written out in
a fixed form, everything else of it is dropped.  The view of a view is the view.
-/

namespace OufMcp.StatusView

open Cursor (Status)
open Json (Value Numerals Reader marshal fillField storeText storeFlagPointer)

/-- `statusview.Public` -/
def publicDetail : String := "PUBLIC_OPERATIONAL"

/-- What `Project` decodes of a document. -/
structure Source where
  module : String
  status : String
  actionRequired : Option Bool
  partialResult : Option Bool
  deriving DecidableEq, Repr

structure PublicStatus where
  status : Status
  actionRequired : Bool
  partialResult : Bool
  deriving DecidableEq, Repr

/-- `validStatus`, with the status it accepts. -/
def status? (s : String) : Option Status :=
  if s = "HEALTHY" then some .healthy
  else if s = "RECOVERING" then some .recovering
  else if s = "DEGRADED" then some .degraded
  else none

theorem status?_text (status : Status) : status? status.text = some status := by
  cases status <;> decide

variable {ν : Type}

def sourceFields : List String := ["module", "status", "actionRequired", "partial"]

def decodeSource (document : Value String ν) : Option Source := do
  let members ← document.members?
  let module ← fillField sourceFields "module" storeText "" members
  let status ← fillField sourceFields "status" storeText "" members
  let actionRequired ← fillField sourceFields "actionRequired" storeFlagPointer none members
  let partialResult ← fillField sourceFields "partial" storeFlagPointer none members
  pure { module, status, actionRequired, partialResult }

def Source.valid? (source : Source) : Option PublicStatus := do
  guard (source.module = "MCP")
  let actionRequired ← source.actionRequired
  let partialResult ← source.partialResult
  let status ← status? source.status
  pure { status, actionRequired, partialResult }

def PublicStatus.document (view : PublicStatus) : Value String ν :=
  .obj [("module", .str "MCP"), ("status", .str view.status.text),
    ("actionRequired", .bool view.actionRequired), ("partial", .bool view.partialResult),
    ("visibilityClass", .str publicDetail), ("redacted", .bool true)]

section Project

variable {numerals : Numerals ν} (reader : Reader numerals)

def view? (raw : ByteArray) : Option PublicStatus := do
  let document ← reader.read raw
  let source ← decodeSource document
  source.valid?

/-- Every failure is `ErrInvalid`. -/
def project (raw : ByteArray) : Option ByteArray :=
  (view? reader raw).map fun view => marshal numerals view.document

theorem decodeSource_document (view : PublicStatus) :
    decodeSource (view.document : Value String ν) =
      some ⟨"MCP", view.status.text, some view.actionRequired, some view.partialResult⟩ := by
  have own : ∀ field ∈ sourceFields, Json.target sourceFields field = some field := by decide
  have added : Json.target sourceFields "visibilityClass" = none ∧
      Json.target sourceFields "redacted" = none := by decide
  simp only [sourceFields, List.forall_mem_cons] at own added
  simp [decodeSource, PublicStatus.document, Value.members?, fillField, Json.into, sourceFields,
    own, added, storeText, storeFlagPointer]

theorem view?_marshal (view : PublicStatus) :
    view? reader (marshal numerals view.document) = some view := by
  have shallow : (view.document : Value String ν).depth ≤ Json.maxNestingDepth := by
    simp [PublicStatus.document, Value.depth, Json.membersDepth, Json.maxNestingDepth]
  simp [view?, reader.read_marshal _ shallow, decodeSource_document, Source.valid?, status?_text]

theorem project_eq_some {raw view : ByteArray} :
    project reader raw = some view ↔
      ∃ status, view? reader raw = some status ∧ marshal numerals status.document = view :=
  Option.map_eq_some_iff

theorem project_project {raw view : ByteArray} (projected : project reader raw = some view) :
    project reader view = some view := by
  obtain ⟨status, -, rfl⟩ := (project_eq_some reader).mp projected
  exact (project_eq_some reader).mpr ⟨status, view?_marshal reader status, rfl⟩

end Project

end OufMcp.StatusView
