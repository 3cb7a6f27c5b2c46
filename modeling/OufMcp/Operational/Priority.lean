import OufMcp.Cursor.Order
import OufMcp.Operational.Completion
import OufMcp.Sorting.WeakOrder

/-!
# One order of incidents

`incidentBefore` compares what it can read of two incidents; fields that are missing, of
another type or no timestamp are read as empty.  Whatever it reads, it is a strict weak
order, and incidents that it does not tell apart agree in everything it reads.  The
aggregator sorts by it, the composer merges by it and owner pages are checked with it, so
for incidents of distinct modules and identifiers all three give one sequence.
-/

namespace OufMcp.Operational

open Cursor
open Ledger (Time UUID)
open Sorting (Slice Incomparable WeakOrder SliceIsSorted Arrangement)
open StatusView (PublicStatus)
open Transition (System)

def identity (item : Item) : String × String :=
  (stringValue (item.lookup "module"), incidentId item)

/-- Two incidents agree in all that their priority depends on. -/
structure SameRank (parseTime : String → Option Time) (a b : Item) : Prop where
  resolved : incidentField a "lifecycle_state" "lifecycleState" = "RESOLVED" ↔
    incidentField b "lifecycle_state" "lifecycleState" = "RESOLVED"
  severity : severityRank (stringValue (a.lookup "severity")) =
    severityRank (stringValue (b.lookup "severity"))
  action : boolValue (incidentValue a "action_required" "actionRequired") =
    boolValue (incidentValue b "action_required" "actionRequired")
  instant : incidentTime parseTime a = incidentTime parseTime b
  module : stringValue (a.lookup "module") = stringValue (b.lookup "module")
  incident : incidentId a = incidentId b

section Order

variable {parseTime : String → Option Time}

theorem incidentBefore_compares (a b : Item) :
    incidentBefore parseTime a b = true ↔ priority parseTime a < priority parseTime b :=
  incidentBefore_eq_true parseTime

theorem priority_eq_iff {a b : Item} :
    priority parseTime a = priority parseTime b ↔ SameRank parseTime a b := by
  simp only [priority, toLex_inj, Prod.mk.injEq, OrderDual.toDual_inj, decide_eq_decide]
  constructor
  · rintro ⟨resolved, severity, action, instant, module, incident⟩
    exact ⟨resolved, severity, action, instant, module, incident⟩
  · rintro ⟨resolved, severity, action, instant, module, incident⟩
    exact ⟨resolved, severity, action, instant, module, incident⟩

/-- Incidents that are told apart by module and identifier have different priorities. -/
theorem nodup_priority {incidents : List Item} (distinct : (incidents.map identity).Nodup) :
    (incidents.map (priority parseTime)).Nodup := by
  rw [List.nodup_map_iff_inj_on (List.Nodup.of_map _ distinct)]
  intro a left b right same
  have rank := priority_eq_iff.mp same
  exact List.inj_on_of_nodup_map distinct left right (Prod.ext rank.module rank.incident)

end Order

/-! ## The winner of a merge step -/

section Merge

variable {codec : Codec}

/-- The incidents a merge step chooses from: the heads of the open owners and that of MCP. -/
def heads (frame : CursorFrame) (pages : Producer → CursorOwnerPage codec) : List Item :=
  (frame.owners.filter fun position => !position.done).filterMap (·.head? pages) ++
    (selfCursorIncident frame).toList

def winner (frame : CursorFrame) (pages : Producer → CursorOwnerPage codec) :
    Except CursorError (Option Item) := do
  let best ← bestHead pages 0 none frame.owners
  pure ((selfFirst codec frame best).or (best.map Prod.snd))

theorem mem_heads {frame : CursorFrame} {pages : Producer → CursorOwnerPage codec} {item : Item} :
    item ∈ heads frame pages ↔
      (∃ position ∈ frame.owners, position.done = false ∧ position.head? pages = some item) ∨
        selfCursorIncident frame = some item := by
  simp [heads, and_assoc]

theorem winner_least {frame : CursorFrame} {pages : Producer → CursorOwnerPage codec} {item : Item}
    (won : winner frame pages = .ok (some item)) :
    item ∈ heads frame pages ∧
      ∀ other ∈ heads frame pages, incidentBefore codec.parseTime other item = false := by
  obtain ⟨best, found, chosen⟩ := Relational.bind_eq_ok.mp won
  replace chosen : (selfFirst codec frame best).or (best.map Prod.snd) = some item :=
    Except.ok.inj chosen
  cases first : selfFirst codec frame best with
  | some self =>
    rw [first] at chosen
    obtain rfl := Option.some.inj chosen
    obtain ⟨present, least⟩ := selfFirst_eq_some found first
    refine ⟨mem_heads.mpr (.inr present), ?_⟩
    intro other member
    rcases mem_heads.mp member with ⟨position, among, opened, head⟩ | same
    · exact least position among opened other head
    · obtain rfl := Option.some.inj (present.symm.trans same)
      exact incidentBefore_irrefl self
  | none =>
    rw [first, Option.none_or] at chosen
    obtain ⟨⟨place, candidate⟩, rfl, rfl⟩ := Option.map_eq_some_iff.mp chosen
    obtain ⟨source, -, least⟩ := (bestHead_spec found).2 place candidate rfl
    refine ⟨?_, ?_⟩
    · rcases source with impossible | ⟨index, position, there, -, opened, head⟩
      · cases impossible
      · exact mem_heads.mpr (.inl ⟨position, List.mem_of_getElem? there, opened, head⟩)
    · intro other member
      rcases mem_heads.mp member with ⟨position, among, opened, head⟩ | present
      · exact least position among opened other head
      · exact (selfFirst_eq_none first).2 place candidate rfl other present

end Merge

/-! ## One sequence -/

/-- The comparison of incidents is a strict weak order that tells apart all it reads; and
incidents with distinct identities have one sequence, which is the result of every sort, the
only one that the check of owner pages accepts, what the aggregator cuts off at its limit, what
every merge step begins with and what the pages of a cursor return. -/
theorem incidentPriority_weakOrder (codec : Codec) :
    WeakOrder (incidentBefore codec.parseTime) ∧
    (∀ a b, Incomparable (incidentBefore codec.parseTime) a b ↔ SameRank codec.parseTime a b) ∧
    ∀ incidents : List Item, (incidents.map identity).Nodup →
      ∃ sequence, Arrangement (incidentBefore codec.parseTime) incidents sequence ∧
        (∀ (slice : Slice (incidentBefore codec.parseTime)) requested self arrivals,
          (collected self arrivals).items.Perm incidents →
          (Operational.incidents slice requested self arrivals).items =
            sequence.take (incidentLimit requested)) ∧
        (∀ frame (pages : Producer → CursorOwnerPage codec) item,
          (heads frame pages).Perm incidents → winner frame pages = .ok (some item) →
          sequence.head? = some item) ∧
        ∀ state : Composers codec, (composerSystem codec).Reachable System.always state →
          ∀ bodies, state.Responses bodies → (bodies.flatMap (·.1.items)).Perm incidents →
          bodies.flatMap (·.1.items) = sequence := by
  have compares : ∀ a b, incidentBefore codec.parseTime a b = true ↔
      priority codec.parseTime a < priority codec.parseTime b := incidentBefore_compares
  refine ⟨Sorting.weakOrder_of_key compares, ?_, ?_⟩
  · intro a b
    rw [Sorting.incomparable_iff compares, priority_eq_iff]
  · intro incidents distinct
    have keys : (incidents.map (priority codec.parseTime)).Nodup := nodup_priority distinct
    obtain ⟨sequence, arranged⟩ := Sorting.exists_arrangement compares keys
    refine ⟨sequence, arranged, ?_, ?_, ?_⟩
    · intro slice requested self arrivals perm
      rw [incidents_items, arranged.sort_eq slice _ perm]
    · intro frame pages item perm won
      obtain ⟨among, least⟩ := winner_least won
      refine arranged.head?_eq compares keys (perm.mem_iff.mp among) ?_
      intro other member
      exact least other (perm.mem_iff.mpr member)
    · intro state reached bodies responses perm
      refine (arranged.sorted_iff _ perm).mp ((Sorting.sliceIsSorted_iff compares).mpr ?_)
      obtain ⟨deliveries, chain, rfl⟩ := responses.chain reached
      rw [List.flatMap_map]
      exact (Composers.kept_of_reachable reached).chain_sorted chain

/-- An open incident of the gateway, some of its fields in the other spelling. -/
def sampleIncidentOf (id severity : String) : Item :=
  [("incidentId", Value.text id), ("module", .text "GATEWAY"), ("severity", .text severity),
    ("lifecycleState", .text "OPEN"), ("action_required", .other "null")].foldl
      (fun item member => item.insert member.1 member.2) ∅

theorem incidentPriority_weakOrder_twoIncidents :
    ∃ sequence, Arrangement (incidentBefore sampleCodec.parseTime)
        [sampleIncidentOf "a" "WARNING", sampleIncidentOf "b" "CRITICAL"] sequence ∧
      sequence = [sampleIncidentOf "b" "CRITICAL", sampleIncidentOf "a" "WARNING"] := by
  obtain ⟨-, -, unique⟩ := incidentPriority_weakOrder sampleCodec
  obtain ⟨sequence, arranged, -⟩ := unique
    [sampleIncidentOf "a" "WARNING", sampleIncidentOf "b" "CRITICAL"] (by decide +kernel)
  refine ⟨sequence, arranged, ((arranged.sorted_iff _ (.swap _ _ _)).mp ?_).symm⟩
  decide +kernel

end OufMcp.Operational
