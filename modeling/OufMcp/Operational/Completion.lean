import OufMcp.Operational.Aggregator

/-!
# The order in which producers complete

What is gathered from the replies, without the order in which they came in.  A
missing, malformed or partial reply leaves its mark whatever follows it, and the
sort before the limit orders incidents by priority.
-/

namespace OufMcp.Operational

open Cursor (Item Value Producer Status stringValue boolValue incidentBefore priority)
open Ledger (Time)
open Sorting (Slice)
open StatusView (PublicStatus status?)

def usableModule? (arrival : Arrival (Option Item)) : Option Item :=
  match arrival.reply with
  | .decoded (some module) =>
    if validSummary (some module) arrival.producer.text then some module else none
  | _ => none

/-- The status a reply leaves on the whole. -/
def weight (arrival : Arrival (Option Item)) : Status :=
  match usableModule? arrival with
  | none => .degraded
  | some module =>
    if boolValue (module.lookup "partial") then .degraded
    else (itemStatus module).getD .degraded

def join (a b : Status) : Status := combineStatus a (some b)

structure Collection.Same (first second : Collection) : Prop where
  items : first.items.Perm second.items
  unavailable : first.unavailable.Perm second.unavailable
  partialResult : first.partialResult = second.partialResult
  truncated : first.truncated = second.truncated

section Incidents

variable {parseTime : String → Option Time}

theorem incidents_items (slice : Slice (incidentBefore parseTime)) (requested : Int)
    (self : Option PublicStatus) (arrivals : List (Arrival IncidentPage)) :
    (incidents slice requested self arrivals).items =
      (slice.sort (collected self arrivals).items).take (incidentLimit requested) := by
  unfold incidents
  dsimp only
  split
  next => rfl
  next short => exact (List.take_of_length_le (not_lt.mp short)).symm

structure IncidentsDocument.Alike (parseTime : String → Option Time)
    (first second : IncidentsDocument) : Prop where
  partialResult : first.partialResult = second.partialResult
  truncated : first.truncated = second.truncated
  unavailable : first.unavailableProducers = second.unavailableProducers
  priorities : first.items.map (priority parseTime) = second.items.map (priority parseTime)

end Incidents

end OufMcp.Operational
