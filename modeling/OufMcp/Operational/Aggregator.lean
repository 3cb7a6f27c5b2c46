import OufMcp.Cursor.Frame
import OufMcp.Sorting.Slice
import OufMcp.StatusView.Public

/-!
# Summaries and incidents of the producers

`Aggregator.Summary` and `Aggregator.Incidents` gather the replies of the producers
in the order in which they come in, together with the status of MCP itself.  A reply
that is missing or malformed is reported as unavailable.
-/

namespace OufMcp.Operational

open Cursor (Item Value Producer Status stringValue boolValue incidentBefore)
open Ledger (Time)
open Sorting (Slice)
open StatusView (PublicStatus status? publicDetail)

/-- What a producer call brings back: nothing, a body that does not decode, or its content. -/
inductive Reply (δ : Type) where
  | failed
  | malformed
  | decoded (value : δ)

/-- One result from the channel. -/
structure Arrival (δ : Type) where
  producer : Producer
  reply : Reply δ

def selfItem (view : PublicStatus) : Item :=
  [("module", Value.text "MCP"), ("status", .text view.status.text),
    ("actionRequired", .flag view.actionRequired), ("partial", .flag view.partialResult),
    ("visibilityClass", .text publicDetail), ("redacted", .flag true)].foldl
      (fun item member => item.insert member.1 member.2) ∅

/-! ## Summary -/

/-- A status that is not valid counts as degraded. -/
def combineStatus (current : Status) (next : Option Status) : Status :=
  match next with
  | none => .degraded
  | some next =>
    if next = .degraded ∨ current = .degraded then .degraded
    else if next = .recovering ∨ current = .recovering then .recovering
    else .healthy

def itemStatus (item : Item) : Option Status := status? (stringValue (item.lookup "status"))

def isFlag : Option Value → Bool
  | some (.flag _) => true
  | _ => false

/-- The decoded object is nil for `null`. -/
def validSummary (module : Option Item) (expected : String) : Bool :=
  match module with
  | none => false
  | some module => decide (module.lookup "module" = some (Value.text expected))
      && (itemStatus module).isSome && isFlag (module.lookup "partial")

structure Gathering where
  modules : List Item
  unavailable : List String
  partialResult : Bool
  status : Status

namespace Gathering

def miss (sofar : Gathering) (name : String) : Gathering where
  modules := sofar.modules
  unavailable := sofar.unavailable ++ [name]
  partialResult := true
  status := .degraded

def add (sofar : Gathering) (module : Item) : Gathering :=
  let isPartial := boolValue (module.lookup "partial")
  { modules := sofar.modules ++ [module]
    unavailable := sofar.unavailable
    partialResult := sofar.partialResult || isPartial
    status := if isPartial then .degraded else combineStatus sofar.status (itemStatus module) }

def gather (sofar : Gathering) (arrival : Arrival (Option Item)) : Gathering :=
  match arrival.reply with
  | .decoded (some module) =>
    if validSummary (some module) arrival.producer.text then sofar.add module
    else sofar.miss arrival.producer.text
  | _ => sofar.miss arrival.producer.text

def start (self : Option PublicStatus) : Gathering :=
  match self with
  | none => miss ⟨[], [], false, .healthy⟩ "MCP"
  | some view => add ⟨[], [], false, .healthy⟩ (selfItem view)

end Gathering

structure SummaryDocument where
  status : Status
  partialResult : Bool
  modules : List Item
  unavailableProducers : List String

def moduleBefore (a b : Item) : Bool :=
  decide (stringValue (a.lookup "module") < stringValue (b.lookup "module"))

def summary (slice : Slice moduleBefore) (self : Option PublicStatus)
    (arrivals : List (Arrival (Option Item))) : SummaryDocument :=
  let gathered := arrivals.foldl Gathering.gather (.start self)
  { status := gathered.status
    partialResult := gathered.partialResult
    modules := slice.sort gathered.modules
    unavailableProducers := gathered.unavailable.insertionSort (· ≤ ·) }

/-! ## Incidents -/

/-- The struct that a reply with incidents decodes into. -/
structure IncidentPage where
  items : Option (List (Option Item))
  partialResult : Option Bool
  truncated : Bool

/-- `validIncidentItems`, with the items when none of them is nil. -/
def validIncidentItems (items : List (Option Item)) (expected : String) : Option (List Item) :=
  items.mapM fun entry => entry.bind fun item =>
    if ∀ label ∈ item.lookup "module", label = Value.text expected then some item else none

def label (name : String) (item : Item) : Item :=
  if (item.lookup "module").isSome then item else item.insert "module" (.text name)

def usable? (arrival : Arrival IncidentPage) : Option (List Item × Bool × Bool) :=
  match arrival.reply with
  | .decoded page => do
      let entries ← page.items
      let isPartial ← page.partialResult
      let items ← validIncidentItems entries arrival.producer.text
      some (items.map (label arrival.producer.text), isPartial, page.truncated)
  | _ => none

structure Collection where
  items : List Item
  unavailable : List String
  partialResult : Bool
  truncated : Bool

namespace Collection

def miss (sofar : Collection) (name : String) : Collection :=
  { sofar with unavailable := sofar.unavailable ++ [name], partialResult := true }

def collect (sofar : Collection) (arrival : Arrival IncidentPage) : Collection :=
  match usable? arrival with
  | none => sofar.miss arrival.producer.text
  | some (items, isPartial, truncated) =>
    { items := sofar.items ++ items
      unavailable := sofar.unavailable
      partialResult := sofar.partialResult || isPartial
      truncated := sofar.truncated || truncated }

end Collection

def mapStatusLifecycle : Status → String
  | .recovering => "RECOVERING"
  | _ => "OPEN"

def mapStatusSeverity : Status → String
  | .degraded => "ERROR"
  | _ => "WARNING"

def selfIncident (state : Status) : Item :=
  [("incident_id", Value.text "mcp-operational-state"), ("module", .text "MCP"),
    ("event_type", .text ("MCP_OPERATIONAL_" ++ state.text)),
    ("lifecycle_state", .text (mapStatusLifecycle state)),
    ("severity", .text (mapStatusSeverity state)),
    ("impact_summary", .text ("MCP has governed recovery, debt, evidence or unresolved " ++
      "orchestration state requiring attention.")),
    ("action_required", .flag (decide (state = .degraded))),
    ("visibility_class", .text "TENANT_OPERATIONAL")].foldl
      (fun item member => item.insert member.1 member.2) ∅

def Collection.addSelf (sofar : Collection) (self : Option PublicStatus) : Collection :=
  match self with
  | none => sofar.miss "MCP"
  | some view =>
    { sofar with
      items := if view.status = .healthy then sofar.items
        else sofar.items ++ [selfIncident view.status]
      partialResult := sofar.partialResult || view.partialResult }

def collected (self : Option PublicStatus) (arrivals : List (Arrival IncidentPage)) : Collection :=
  (arrivals.foldl Collection.collect ⟨[], [], false, false⟩).addSelf self

def incidentLimit (requested : Int) : Nat :=
  if requested < 1 ∨ requested > 100 then 50 else requested.toNat

structure IncidentsDocument where
  items : List Item
  partialResult : Bool
  unavailableProducers : List String
  truncated : Bool

def incidents {parseTime : String → Option Time} (slice : Slice (incidentBefore parseTime))
    (requested : Int) (self : Option PublicStatus) (arrivals : List (Arrival IncidentPage)) :
    IncidentsDocument :=
  let all := collected self arrivals
  let limit := incidentLimit requested
  let sorted := slice.sort all.items
  { items := if sorted.length > limit then sorted.take limit else sorted
    partialResult := all.partialResult
    unavailableProducers := all.unavailable.insertionSort (· ≤ ·)
    truncated := all.truncated || decide (sorted.length > limit) }

end OufMcp.Operational
