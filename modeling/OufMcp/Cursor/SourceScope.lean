import OufMcp.Cursor.Certificate
import OufMcp.Cursor.ReadKeys
import OufMcp.Policy.Bundle

/-!
# The source scope of owner reads

Every owner read is authorized for a resource that names the tenant of the caller
and, for ingestion, the source the query was restricted to.  The source is given
once, at the start of a listing; later calls only bring a token.  Where each node
and each bookmark comes from is recorded beside a run, by tokens alone, and the
scope of every read is compared with that record.
-/

namespace OufMcp.Cursor

open Ledger (UUID Time)
open Relational Transition Interaction

variable {codec : Codec}

/-! ## Resources -/

def Producer.detailLevel : Producer → String
  | .gateway => "RESTRICTED_OPERATIONAL"
  | .ingestion => "TENANT_OPERATIONAL"

/-- The attributes `producerRead` gives to a resource. -/
def OwnerRead.attributes (read : OwnerRead) : Policy.Attributes :=
  let plain := ((∅ : Policy.Attributes).insert "module" read.producer.text).insert "detailLevel"
    read.producer.detailLevel
  let named := if read.producer = .gateway then plain.insert "incidentScope" "PLATFORM" else plain
  match read.sourceRef with
  | some source => named.insert "sourceRef" source
  | none => named

def OwnerRead.resource (read : OwnerRead) (caller : Caller) : Policy.ResourceContext where
  resourceType := "operational"
  resourceId := ""
  tenantId := caller.identity.tenantId
  organizationId := ""
  attributes := read.attributes

theorem OwnerRead.attributes_sourceRef (read : OwnerRead) :
    read.attributes.lookup "sourceRef" = read.sourceRef := by
  unfold attributes
  cases read.sourceRef with
  | some source => exact Finmap.lookup_insert _
  | none =>
    cases read.producer with
    | gateway => simp [Finmap.lookup_insert_of_ne]
    | ingestion => simp [Finmap.lookup_insert_of_ne]

theorem OwnerRead.attributes_incidentScope (read : OwnerRead) :
    read.attributes.lookup "incidentScope" =
      if read.producer = .gateway then some "PLATFORM" else none := by
  unfold attributes
  cases read.sourceRef <;> cases read.producer <;> simp [Finmap.lookup_insert_of_ne]

/-! ## The source of a query -/

def sourceId (filters : Filters) : Option String :=
  (filters.lookup "sourceId").map fun value => stringValue (some value)

def Producer.scope (source : Option String) : Producer → Option String
  | .gateway => none
  | .ingestion => source

theorem sourceId_erase {filters : Filters} {name : String} (other : "sourceId" ≠ name) :
    sourceId (filters.erase name) = sourceId filters := by
  unfold sourceId
  rw [Finmap.lookup_erase_ne other]

theorem sourceId_ne_of_query {filters : Filters}
    (accepted : (operationalQuery codec filters true).isSome = true) :
    sourceId filters ≠ some "" := by
  intro blank
  obtain ⟨value, found, empty⟩ := Option.map_eq_some_iff.mp blank
  unfold operationalQuery at accepted
  split at accepted
  next members =>
    have member := members "sourceId" (Finmap.mem_keys.mpr (Finmap.mem_of_lookup_eq_some found))
    rw [found] at member
    simp [queryMember, empty] at member
  next => cases accepted

theorem sourceId_ne_of_publication {filters canonical : Filters}
    (accepted : canonicalPublicationFilters codec filters = .ok canonical) :
    sourceId filters ≠ some "" := by
  intro blank
  obtain ⟨value, found, empty⟩ := Option.map_eq_some_iff.mp blank
  simp only [canonicalPublicationFilters, bind_eq_ok, ensure_eq_ok] at accepted
  obtain ⟨_, -, _, members, -⟩ := accepted
  have member := members "sourceId" (Finmap.mem_keys.mpr (Finmap.mem_of_lookup_eq_some found))
  rw [found] at member
  simp [publicationMember, empty] at member

/-! ## What the owners are asked -/

/-- A read of a page at a cursor, scoped by the saved filters. -/
structure OwnerRead.Pages (filters : Filters) (coverage : Bool) (read : OwnerRead) : Prop where
  query : ∃ token, read.query = .cursor token coverage
  source : read.sourceRef = read.producer.scope (sourceId filters)

/-- A read that captures an owner for a frame. -/
structure OwnerRead.Captures (blank : CursorFrame) (read : OwnerRead) : Prop where
  resumes : ∀ base, blank.publicationBase = some base →
    ∃ bookmark, read.query = .resumeFrom bookmark
  plain : read.producer = .gateway →
    ∀ filters coverage, read.query = .snapshot filters coverage → filters.lookup "sourceId" = none
  source : read.sourceRef = read.producer.scope (sourceId blank.filters)

theorem scope_of_saved {filters : Filters} (named : sourceId filters ≠ some "") :
    (if stringValue (filters.lookup "sourceId") = "" then none
      else some (stringValue (filters.lookup "sourceId"))) = sourceId filters := by
  unfold sourceId at named ⊢
  cases found : filters.lookup "sourceId" with
  | none => rfl
  | some value =>
    have present : stringValue (some value) ≠ "" := by
      intro empty
      rw [found, Option.map_some, empty] at named
      exact named rfl
    rw [if_neg present, Option.map_some]

theorem captureReads_scope {blank : CursorFrame} (named : sourceId blank.filters ≠ some "")
    (based : ∀ vector, blank.publicationBase = some vector → blank.publicationCoverage = true)
    {read : OwnerRead} (member : read ∈ captureReads blank) : read.Captures blank := by
  obtain ⟨name, -, made⟩ := List.mem_filterMap.mp member
  have saved := scope_of_saved named
  cases base : blank.publicationBase with
  | some vector =>
    simp only [captureQuery, base] at made
    cases name with
    | gateway =>
      cases made
      exact ⟨fun _ _ => ⟨_, rfl⟩, fun _ _ _ impossible => (by cases impossible), rfl⟩
    | ingestion =>
      cases made
      refine ⟨fun _ _ => ⟨_, rfl⟩, fun impossible => (by cases impossible), ?_⟩
      rw [captureScope, if_pos (based vector base)]
      exact saved
  | none =>
    simp only [captureQuery, base] at made
    cases name with
    | gateway =>
      cases made
      refine ⟨by simp [base], ?_, rfl⟩
      rintro - _ _ ⟨⟩
      exact Finmap.lookup_erase _ _
    | ingestion =>
      have source : read.producer = .ingestion ∧ read.sourceRef = sourceId blank.filters := by
        simp only [producerRead] at made
        split at made
        next absent =>
          cases made
          refine ⟨rfl, ?_⟩
          rw [← saved, captureScope, absent]
          cases blank.publicationCoverage <;> rfl
        next value found =>
          split at made
          next => cases made
          next =>
            cases made
            rw [sourceId, found]
            exact ⟨rfl, rfl⟩
      refine ⟨by simp [base], fun impossible => ?_, ?_⟩
      · cases source.1.symm.trans impossible
      · rw [source.1, source.2]
        rfl

theorem savedSource_eq_ok {filters : Filters} {source : String}
    (saved : savedSource filters = .ok source) :
    source = stringValue (filters.lookup "sourceId") := by
  unfold savedSource at saved
  split at saved
  next found =>
    cases saved
    rw [found]
    rfl
  next found =>
    cases saved
    rw [found]
    rfl
  next => cases saved

theorem OwnerRead.Asks.pages {filters : Filters} {name : Producer} {token : String}
    {coverage : Bool} {read : OwnerRead} (asks : read.Asks filters (.cursor token coverage) name)
    (named : sourceId filters ≠ some "") : read.Pages filters coverage := by
  obtain ⟨source, saved, made⟩ := asks
  cases name with
  | gateway =>
    cases made
    exact ⟨⟨token, rfl⟩, rfl⟩
  | ingestion =>
    cases made
    refine ⟨⟨token, rfl⟩, ?_⟩
    rw [savedSource_eq_ok saved]
    exact scope_of_saved named

/-! ## Bookmarks and scopes -/

theorem StoreState.step_bookmarks {stored after : StoreState codec} {event : StoreEvent}
    (stepped : stored.step event = some after)
    (other : ∀ locked clock victim fresh request, event ≠ .put locked clock victim fresh request) :
    after.store.bookmarks = stored.store.bookmarks := by
  cases (StoreState.step_moves stepped).1 with
  | none same => rw [same]
  | create _ _ done =>
    obtain ⟨-, swept, expired, opened⟩ := Store.createIncidentCursor_eq_ok done
    refine opened.bookmarks.trans ?_
    rcases Store.expireSession_eq_ok expired with rfl | ⟨session, -, gone⟩
    · rfl
    · exact gone.bookmarks
  | commit _ done =>
    obtain ⟨node, session, -, -, committed⟩ := Store.commitIncidentCursorPage_eq_ok done
    exact committed.bookmarks
  | put => exact absurd rfl (other _ _ _ _ _)

def Phase.scope? : Phase codec → Option (Caller × Filters)
  | .resuming caller frame => some (caller, frame.filters)
  | .loaded caller _ node => some (caller, node.frame.filters)
  | .holding work => some (work.caller, work.node.frame.filters)
  | .composed draft => some (draft.caller, draft.node.frame.filters)
  | .ready draft _ _ => some (draft.caller, draft.node.frame.filters)
  | _ => none

structure Resumes (frame : CursorFrame) : Prop where
  named : sourceId frame.filters ≠ some ""
  coverage : frame.publicationCoverage = true
  base : frame.publicationBase ≠ none

/-! ## Where nodes and bookmarks come from -/

/-- The source that was given at the start a call, a node or a bookmark goes back to; for a call
also who made it. -/
structure Origins where
  calls : Nat → Option (Caller × Option String)
  nodes : UUID → Option (Option String)
  bookmarks : UUID → Option (Option String)

namespace Origins

def none : Origins := ⟨fun _ => .none, fun _ => .none, fun _ => .none⟩

def begins (origins : Origins) (call : Nat) (caller : Caller) (source : Option (Option String)) :
    Origins :=
  { origins with calls := Function.update origins.calls call (source.map (caller, ·)) }

/-- A node that a call created goes back where the call does. -/
def opens (origins : Origins) (state next : Composers codec) (call : Nat) (token : UUID) :
    Origins :=
  if next.created.length = state.created.length then origins
  else { origins with
    nodes := Function.update origins.nodes token ((origins.calls call).map (·.2)) }

/-- A bookmark that a call stored goes back where the call does; one that it found keeps its
origin. -/
def publishes (origins : Origins) (state next : Composers codec) (call : Nat) (token : UUID) :
    Origins :=
  if next.stored.store.bookmarks.get token = state.stored.store.bookmarks.get token then origins
  else { origins with
    bookmarks := Function.update origins.bookmarks token ((origins.calls call).map (·.2)) }

def step (origins : Origins) (state next : Composers codec) : ComposerEvent → Origins
  | .start call caller _ arguments _ _ fresh =>
    (origins.begins call caller (some (sourceId arguments))).opens state next call fresh.token
  | .resume call caller _ token _ => origins.begins call caller (origins.bookmarks token)
  | .recapture call _ _ fresh => origins.opens state next call fresh.token
  | .page call caller _ token _ _ => origins.begins call caller (origins.nodes token)
  | .finalize call _ _ _ fresh => origins.publishes state next call fresh
  | .commit call _ _ candidate => origins.opens state next call candidate
  | .readBack _ _ _ | .compose _ _ | .abandon _ => origins

end Origins

/-- The composers, with a record of where everything comes from. -/
def tracedSystem (codec : Codec) : System (Composers codec × Origins) ComposerEvent where
  initial state := (composerSystem codec).initial state.1 ∧ state.2 = .none
  step state event := (state.1.step event).map fun next =>
    (next, state.2.step state.1 next event)

/-- Filters name the source that was given where they come from. -/
structure Traced (state : Composers codec) (origins : Origins) : Prop where
  calls : ∀ call caller filters, (state.calls call).scope? = some (caller, filters) →
    origins.calls call = some (caller, sourceId filters)
  resuming : ∀ call caller frame, state.calls call = .resuming caller frame → Resumes frame
  nodes : ∀ node ∈ state.created, origins.nodes node.token = some (sourceId node.frame.filters)
  bookmarks : ∀ token row, state.stored.store.bookmarks.get token = some row →
    origins.bookmarks token = some (sourceId row.metadata.filters)

section Tracing

variable {state next : Composers codec} {origins : Origins} {event : ComposerEvent} {call : Nat}
  {caller : Caller} {phase : Phase codec}

/-- A call that begins with a token has the origin of what the token names. -/
theorem Origins.begins_calls {source : Option (Option String)} :
    (origins.begins call caller source).calls call = source.map (caller, ·) :=
  Function.update_self ..

theorem Origins.step_others {other : Nat} (apart : other ≠ event.call) :
    (origins.step state next event).calls other = origins.calls other := by
  cases event with
  | start | recapture | finalize | commit =>
    simp only [ComposerEvent.call] at apart
    simp only [Origins.step, Origins.opens, Origins.publishes, Origins.begins]
    split <;> simp [apart]
  | resume | page => exact Function.update_of_ne apart ..
  | readBack | compose | abandon => rfl

theorem Origins.step_nodes (created : next.created = state.created) :
    (origins.step state next event).nodes = origins.nodes := by
  cases event with
  | start | recapture | commit => simp [Origins.step, Origins.opens, Origins.begins, created]
  | finalize =>
    simp only [Origins.step, Origins.publishes]
    split <;> rfl
  | resume | page | readBack | compose | abandon => rfl

theorem Origins.step_bookmarks {token : UUID}
    (found : next.stored.store.bookmarks.get token = state.stored.store.bookmarks.get token) :
    (origins.step state next event).bookmarks token = origins.bookmarks token := by
  cases event with
  | start | recapture | commit =>
    simp only [Origins.step, Origins.opens]
    split <;> rfl
  | finalize _ _ _ _ fresh =>
    simp only [Origins.step, Origins.publishes]
    split
    next => rfl
    next changed =>
      have apart : token ≠ fresh := by
        rintro rfl
        exact changed found
      exact Function.update_of_ne apart ..
  | resume | page | readBack | compose | abandon => rfl

theorem Origins.publishes_calls {token : UUID} :
    (origins.publishes state next call token).calls = origins.calls := by
  unfold Origins.publishes
  split <;> rfl

theorem Composers.Kept.composed_filters (kept : state.Kept) {draft : Draft codec}
    (before : state.calls call = .composed draft) :
    draft.composed.frame.filters = draft.node.frame.filters := by
  have sound := kept.phases call
  rw [before] at sound
  have member := kept.held call draft.node (before ▸ rfl)
  exact (compose_alike sound.composed (validateCursorFrame_names (kept.valid _ member))).filters

theorem Traced.step_bookmarks (traced : Traced state origins) (kept : state.Kept)
    (quiet : state.Quiet event next.stored) (token : UUID) (row : BookmarkRow)
    (found : next.stored.store.bookmarks.get token = some row) :
    (origins.step state next event).bookmarks token = some (sourceId row.metadata.filters) := by
  rcases quiet.bookmarks token row found with old |
    ⟨call, locked, clock, victim, draft, rfl, before, filters⟩
  · rw [Origins.step_bookmarks (found.trans old.symm)]
    exact traced.bookmarks token row old
  · by_cases same : next.stored.store.bookmarks.get token = state.stored.store.bookmarks.get token
    · rw [Origins.step_bookmarks same]
      exact traced.bookmarks token row (same.symm.trans found)
    · -- The new bookmark goes back where the call of its finalizer does.
      have here := traced.calls call draft.caller draft.node.frame.filters (before ▸ rfl)
      rw [filters, kept.composed_filters before, Origins.step, Origins.publishes, if_neg same, here]
      exact Function.update_self ..

theorem Traced.update {after : Origins} (traced : Traced state origins)
    (calls : next.calls = Function.update state.calls call phase)
    (others : ∀ other, other ≠ call → after.calls other = origins.calls other)
    (here : ∀ caller filters, phase.scope? = some (caller, filters) →
      after.calls call = some (caller, sourceId filters))
    (resumes : ∀ caller frame, phase = .resuming caller frame → Resumes frame)
    (nodes : ∀ node ∈ next.created, after.nodes node.token = some (sourceId node.frame.filters))
    (bookmarks : ∀ token row, next.stored.store.bookmarks.get token = some row →
      after.bookmarks token = some (sourceId row.metadata.filters)) : Traced next after where
  calls other caller filters found := by
    rw [calls] at found
    by_cases same : other = call
    · subst same
      rw [Function.update_self] at found
      exact here caller filters found
    · rw [Function.update_of_ne same] at found
      rw [others other same]
      exact traced.calls other caller filters found
  resuming := Composers.forall_calls (P := fun phase => ∀ caller frame,
    phase = .resuming caller frame → Resumes frame) calls resumes traced.resuming
  nodes := nodes
  bookmarks := bookmarks

theorem Traced.enters (traced : Traced state origins) (kept : state.Kept)
    (enters : state.Enters event next phase)
    (here : ∀ caller filters, phase.scope? = some (caller, filters) →
      (origins.step state next event).calls event.call = some (caller, sourceId filters))
    (resumes : ∀ caller frame, phase = .resuming caller frame → Resumes frame) :
    Traced next (origins.step state next event) := by
  refine traced.update enters.calls (fun _ => Origins.step_others) here resumes ?_
    (traced.step_bookmarks kept enters.stored)
  rw [Origins.step_nodes enters.created, enters.created]
  exact traced.nodes

theorem Traced.creates (traced : Traced state origins) (kept : state.Kept) {node : CursorNode}
    (calls : next.calls = Function.update state.calls call phase)
    (created : next.created = node :: state.created)
    (bookmarks : next.stored.store.bookmarks = state.stored.store.bookmarks)
    (unused : node.token ∉ state.stored.issued)
    (known : origins.calls call = some (caller, sourceId node.frame.filters))
    (here : phase.scope? = none ∨ phase.scope? = some (caller, node.frame.filters))
    (resumes : ∀ caller frame, phase = .resuming caller frame → Resumes frame) :
    Traced next (origins.opens state next call node.token) := by
  have longer : next.created.length ≠ state.created.length := by simp [created]
  rw [Origins.opens, if_neg longer, known]
  refine traced.update calls (fun _ _ => rfl) ?_ resumes ?_ (bookmarks ▸ traced.bookmarks)
  · intro other filters found
    rcases here with none | same
    · cases none.symm.trans found
    · cases same.symm.trans found
      exact known
  · rw [created]
    intro other member
    rcases List.mem_cons.mp member with rfl | old
    · exact Function.update_self ..
    · have apart : other.token ≠ node.token := by
        intro same
        exact unused (same ▸ (kept.issued other old).1)
      exact (Function.update_of_ne apart ..).trans (traced.nodes other old)

theorem Traced.begins (traced : Traced state origins) (idle : state.calls call = .idle)
    {source : Option (Option String)} : Traced state (origins.begins call caller source) := by
  refine traced.update (Function.update_eq_self call state.calls).symm
    (fun other apart => Function.update_of_ne apart ..) ?_ (traced.resuming call) traced.nodes
    traced.bookmarks
  rw [idle]
  rintro _ _ ⟨⟩

theorem startFrame_filters {publication : Bool} {arguments : Filters} {frame : CursorFrame}
    (started : startFrame codec publication arguments = .ok frame) :
    sourceId frame.filters = sourceId arguments ∧ sourceId frame.filters ≠ some "" ∧
      frame.publicationBase = none := by
  simp only [startFrame, bind_eq_ok, demand_eq_ok] at started
  obtain ⟨limit, query, started⟩ := started
  have named := @sourceId_ne_of_query codec arguments (by rw [query]; rfl)
  have kept : sourceId (arguments.erase "limit") = sourceId arguments := sourceId_erase (by decide)
  split at started
  next =>
    simp only [bind_eq_ok, pure_eq_ok] at started
    obtain ⟨filters, canonical, rfl⟩ := started
    obtain rfl := canonicalPublicationFilters_eq_ok canonical
    exact ⟨kept, kept ▸ named, rfl⟩
  next =>
    simp only [bind_eq_ok, pure_eq_ok] at started
    obtain ⟨_, rfl, rfl⟩ := started
    exact ⟨kept, kept ▸ named, rfl⟩

theorem Traced.opens (traced : Traced state origins) (kept : state.Kept) {work : Work codec}
    {blank : CursorFrame} {answer : OwnerRead → OwnerReply} {own : Option SelfReply}
    {fresh : CreateInputs} (opens : state.Opens event next work blank answer own fresh) :
    Traced next (origins.step state next event) := by
  obtain ⟨-, _, _, _, captured, -⟩ := capture_eq_ok opens.ran
  have filters : work.node.frame.filters = blank.filters := captured ▸ rfl
  have token : work.node.token = fresh.token :=
    congrArg CursorNode.token (Store.createIncidentCursor_eq_ok opens.done).1
  have bookmarks := StoreState.step_bookmarks opens.stepped (by simp)
  have capturing := opens.capturing
  cases capturing with
  | starts idle started =>
    rw [Origins.step, ← token]
    refine (traced.begins idle).creates kept opens.calls opens.created bookmarks opens.unused.1
      ?_ (.inr rfl) (by simp)
    rw [filters, (startFrame_filters started).1]
    exact Origins.begins_calls
  | resumes resuming =>
    rw [Origins.step, ← token]
    refine traced.creates kept opens.calls opens.created bookmarks opens.unused.1 ?_ (.inr rfl)
      (by simp)
    rw [filters]
    exact traced.calls _ _ _ (resuming ▸ rfl)

theorem Traced.commits (traced : Traced state origins) (kept : state.Kept)
    {delivery : Delivery codec} {locked : Bool} {committedAt : Time} {candidate : UUID}
    (commits : state.Commits next call delivery locked committedAt candidate) :
    Traced next (origins.step state next (.commit call locked committedAt candidate)) := by
  obtain ⟨-, names, sound, sealing⟩ := kept.ready commits.before
  have bookmarks := StoreState.step_bookmarks commits.stepped (by simp)
  have created := commits.created
  rcases Composers.opened_eq delivery.node candidate delivery.continuation delivery.next with
    none | ⟨new, one, token, continued⟩
  · rw [none] at created
    refine traced.update commits.calls (fun _ apart => Origins.step_others apart)
      (by rintro _ _ ⟨⟩) (by simp) ?_ ?_
    · rw [Origins.step_nodes created, created]
      exact traced.nodes
    · intro token row found
      rw [Origins.step_bookmarks (by rw [bookmarks])]
      exact traced.bookmarks token row (bookmarks ▸ found)
  · rw [one] at created
    have filters : new.frame.filters = delivery.node.frame.filters := by
      rw [(continued ▸ sealing : delivery.toDraft.Sealed _ (some new.frame)).continuation_eq.2]
      exact (compose_alike sound.composed names).filters
    have known : origins.calls call = some (delivery.caller, sourceId new.frame.filters) := by
      rw [filters]
      exact traced.calls call delivery.caller _ (commits.before ▸ rfl)
    rw [Origins.step, ← token]
    exact traced.creates kept commits.calls created bookmarks (token ▸ commits.unused) known
      (.inl rfl) (by simp)

theorem Traced.step (traced : Traced state origins) (kept : state.Kept)
    (outcome : state.Outcome event next) : Traced next (origins.step state next event) := by
  cases outcome with
  | fails enters => exact traced.enters kept enters (by rintro _ _ ⟨⟩) (by simp)
  | resumes idle loaded canonical enters =>
    obtain ⟨row, found, -, -, same⟩ := Store.loadPublicationBookmark_eq_ok loaded
    obtain ⟨_, canonical⟩ := canonical
    refine traced.enters kept enters ?_ ?_
    · rintro _ _ ⟨⟩
      rw [Origins.step, ComposerEvent.call, Origins.begins_calls, traced.bookmarks _ row found,
        same]
      rfl
    · rintro _ _ ⟨⟩
      exact ⟨sourceId_ne_of_publication canonical, rfl, by simp [blankFrame]⟩
  | loads idle binds loaded enters =>
    obtain ⟨row, held, found, session, -, -, same⟩ := Store.loadIncidentCursor_eq_ok loaded
    obtain ⟨-, _, there, recorded⟩ := kept.recorded _ row found
    obtain rfl := Option.some.inj (there.symm.trans session)
    refine traced.enters kept enters ?_ (by simp)
    rintro _ _ ⟨⟩
    rw [Origins.step, ComposerEvent.call, Origins.begins_calls, traced.nodes _ (same ▸ recorded)]
    rfl
  | readsBack before ran enters =>
    refine traced.enters kept enters ?_ (by simp)
    rintro _ _ ⟨⟩
    exact traced.calls _ _ _ (before ▸ rfl)
  | composes before ran enters =>
    refine traced.enters kept enters ?_ (by simp)
    rintro _ _ ⟨⟩
    exact traced.calls _ _ _ (before ▸ rfl)
  | seals before certified marked done enters =>
    refine traced.enters kept enters ?_ (by simp)
    rintro _ _ ⟨⟩
    rw [Origins.step, Origins.publishes_calls]
    exact traced.calls _ _ _ (before ▸ rfl)
  | opens opens => exact traced.opens kept opens
  | commits commits => exact traced.commits kept commits

theorem traced_of_reachable {guard : Composers codec × Origins → ComposerEvent → Prop}
    {traced : Composers codec × Origins}
    (reached : (tracedSystem codec).Reachable guard traced) :
    (composerSystem codec).Reachable System.always traced.1 ∧ Traced traced.1 traced.2 := by
  refine reached.induction (P := fun traced =>
    (composerSystem codec).Reachable System.always traced.1 ∧ Traced traced.1 traced.2) ?_ ?_
  · rintro ⟨state, origins⟩ ⟨start, rfl⟩
    refine ⟨.of_initial start, ?_⟩
    obtain ⟨now, rfl⟩ := start
    constructor
    · intro _ _ _ impossible
      cases impossible
    · intro _ _ _ impossible
      cases impossible
    · intro _ impossible
      cases impossible
    · intro token row impossible
      cases impossible
  · rintro source event target - ⟨before, traced⟩ - stepped
    obtain ⟨next, taken, rfl⟩ := Option.map_eq_some_iff.mp stepped
    exact ⟨before.step trivial taken, traced.step (Composers.kept_of_reachable before)
      (Composers.step_outcome taken)⟩

/-- The bookmark that a finalizer answers goes back where its call does, also if an earlier call
stored it. -/
theorem finalize_origins_agree {state next : Composers codec} {origins after : Origins}
    (reached : (tracedSystem codec).Reachable System.always (state, origins)) {call : Nat}
    {locked : Bool} {clock : Store.PutClock} {victim : Option UUID} {fresh token : UUID}
    (stepped : (tracedSystem codec).step (state, origins)
      (.finalize call locked clock victim fresh) = some (next, after))
    {draft : Draft codec} {page : CursorPage} {continuation : Option CursorFrame}
    (ready : next.calls call = .ready draft page continuation)
    (marked : page.publicationBookmark = some token) :
    after.bookmarks token = (after.calls call).map (·.2) := by
  obtain ⟨before, -⟩ := traced_of_reachable reached
  obtain ⟨-, traced⟩ := traced_of_reachable (reached.step trivial stepped)
  have kept := Composers.kept_of_reachable before
  obtain ⟨_, taken, same⟩ := Option.map_eq_some_iff.mp stepped
  cases same
  rw [traced.calls call draft.caller draft.node.frame.filters (ready ▸ rfl)]
  have entered {phase : Phase codec} (calls : next.calls = Function.update state.calls call phase) :
      phase = .ready draft page continuation := by
    rw [← ready, calls, Function.update_self]
  have outcome : state.Outcome (.finalize call locked clock victim fresh) next :=
    Composers.step_outcome taken
  cases outcome with
  | fails enters => cases entered enters.calls
  | opens opens => cases entered opens.calls
  | seals composed certified stored done enters =>
    cases entered enters.calls
    simp only [sealPage, bind_eq_ok, pure_eq_ok] at done
    obtain ⟨_, -, _, -, same⟩ := done
    cases same
    obtain ⟨row, found, filters⟩ := stored token marked
    rw [traced.bookmarks token row found, filters, kept.composed_filters composed]
    rfl

end Tracing

/-! ## Every read -/

/-- The reads an event makes, each for the caller it is authorized for.  A capture asks both
owners at once. -/
def Composers.readsOf (state : Composers codec) : ComposerEvent → List (Caller × OwnerRead)
  | .start call caller publication arguments _ _ _ =>
    match state.calls call, startFrame codec publication arguments,
      bindIncidentCursor codec caller.identity caller.policyRef caller.manifest with
    | .idle, .ok frame, .ok _ => (captureReads frame).map (caller, ·)
    | _, _, _ => []
  | .recapture call _ _ _ =>
    match state.calls call with
    | .resuming caller frame =>
      match bindIncidentCursor codec caller.identity caller.policyRef caller.manifest with
      | .ok _ => (captureReads frame).map (caller, ·)
      | .error _ => []
    | _ => []
  | .readBack call answer self =>
    match state.calls call with
    | .loaded caller _ node => ((readBack codec node.frame self).asked answer).map (caller, ·)
    | _ => []
  | .compose call answer =>
    match state.calls call with
    | .holding work =>
      ((compose work.node.frame work.pages).asked answer).map (work.caller, ·)
    | _ => []
  | _ => []

def OwnerRead.argumentNames (read : OwnerRead) : List String :=
  match read.query.arguments with
  | .obj members => members.map (·.1)
  | _ => []

/-- A read that is authorized for a caller and a source. -/
structure OwnerRead.Within (caller : Caller) (source : Option String) (read : OwnerRead) :
    Prop where
  tenant : (read.resource caller).tenantId = caller.identity.tenantId
  sourceRef : (read.resource caller).attributes.lookup "sourceRef" = read.producer.scope source
  incidentScope : (read.resource caller).attributes.lookup "incidentScope" =
    if read.producer = .gateway then some "PLATFORM" else none
  plain : read.producer = .gateway → "sourceId" ∉ read.argumentNames

theorem OwnerRead.within_of_source {caller : Caller} {source : Option String} {read : OwnerRead}
    (sourceRef : read.sourceRef = read.producer.scope source)
    (plain : read.producer = .gateway → "sourceId" ∉ read.argumentNames) :
    read.Within caller source :=
  ⟨rfl, read.attributes_sourceRef.trans sourceRef, read.attributes_incidentScope, plain⟩

theorem OwnerRead.Pages.within {filters : Filters} {coverage : Bool} {caller : Caller}
    {read : OwnerRead} (pages : read.Pages filters coverage) :
    read.Within caller (sourceId filters) := by
  refine within_of_source pages.source fun _ => ?_
  obtain ⟨token, query⟩ := pages.query
  rw [argumentNames, query]
  cases coverage <;> simp [OwnerQuery.arguments, coverageMember]

theorem lookup_of_mem_textMembers {filters : Filters} {names : List String} {name : String}
    (member : name ∈ (textMembers filters names).map (·.1)) : filters.lookup name ≠ none := by
  obtain ⟨argument, found, rfl⟩ := List.mem_map.mp member
  obtain ⟨name, -, made⟩ := List.mem_filterMap.mp found
  obtain ⟨text, present, rfl⟩ := Option.map_eq_some_iff.mp made
  obtain ⟨value, stored, -⟩ := Option.map_eq_some_iff.mp present
  simp [stored]

theorem OwnerRead.Captures.within {blank : CursorFrame} {caller : Caller} {read : OwnerRead}
    (captures : read.Captures blank) (opening : read.query.opening = true) :
    read.Within caller (sourceId blank.filters) := by
  refine within_of_source captures.source fun gateway => ?_
  unfold argumentNames
  cases query : read.query with
  | snapshot filters coverage =>
    have absent := captures.plain gateway filters coverage query
    have text : ∀ names, "sourceId" ∉ (textMembers filters names).map (·.1) :=
      fun names member => lookup_of_mem_textMembers member absent
    have coverage' : "sourceId" ∉ (coverageMember coverage).map (·.1) := by
      cases coverage <;> simp [coverageMember]
    simp only [OwnerQuery.arguments, List.map_append, List.map_cons, List.mem_append,
      List.mem_cons, not_or]
    exact ⟨⟨coverage', by decide, text _⟩, by decide, text _⟩
  | resumeFrom bookmark => simp [OwnerQuery.arguments]
  | cursor token coverage =>
    rw [query] at opening
    cases opening

/-- Every read is made for the caller of its call and for the source that was given at the start
its call goes back to, whatever lies between; continuations send a cursor alone and resumes a
bookmark alone. -/
theorem ownerReads_within {guard : Composers codec × Origins → ComposerEvent → Prop}
    {state next : Composers codec} {origins after : Origins} {event : ComposerEvent}
    (reached : (tracedSystem codec).Reachable guard (state, origins))
    (stepped : (tracedSystem codec).step (state, origins) event = some (next, after))
    {caller : Caller} {read : OwnerRead} (member : (caller, read) ∈ state.readsOf event) :
    (∃ source, after.calls event.call = some (caller, source) ∧ read.Within caller source) ∧
    (∀ node, (state.calls event.call).node? = some node → ∃ token, read.query.arguments =
      .obj (coverageMember node.frame.publicationCoverage ++ [("cursor", .str token)])) ∧
    (∀ caller frame, state.calls event.call = .resuming caller frame → ∃ bookmark,
      read.query.arguments = .obj [("limit", .num 100), ("resumeFrom", .str bookmark)]) := by
  obtain ⟨before, traced⟩ := traced_of_reachable reached
  have kept := Composers.kept_of_reachable before
  obtain ⟨_, taken, same⟩ := Option.map_eq_some_iff.mp stepped
  cases same
  -- The filters of a node that a call works on name no empty source.
  have named {call : Nat} {node : CursorNode} (works : (state.calls call).node? = some node) :
      sourceId node.frame.filters ≠ some "" := by
    have valid := kept.valid node (kept.held call node works)
    simp only [validateCursorFrame, bind_eq_ok, ensure_eq_ok] at valid
    obtain ⟨_, -, _, query, -⟩ := valid
    exact sourceId_ne_of_query query
  have continued {call : Nat} {node : CursorNode} (held : (state.calls call).node? = some node)
      (scope : (state.calls call).scope? = some (caller, node.frame.filters))
      (awake : ∀ caller frame, state.calls call ≠ .resuming caller frame)
      (pages : read.Pages node.frame.filters node.frame.publicationCoverage) :
      (∃ source, origins.calls call = some (caller, source) ∧ read.Within caller source) ∧
      (∀ node, (state.calls call).node? = some node → ∃ token, read.query.arguments =
        .obj (coverageMember node.frame.publicationCoverage ++ [("cursor", .str token)])) ∧
      (∀ caller frame, state.calls call = .resuming caller frame → ∃ bookmark,
        read.query.arguments = .obj [("limit", .num 100), ("resumeFrom", .str bookmark)]) := by
    refine ⟨⟨_, traced.calls call caller _ scope, pages.within⟩, fun other here => ?_,
      fun caller frame resuming => absurd resuming (awake caller frame)⟩
    obtain rfl : node = other := Option.some.inj (held.symm.trans here)
    obtain ⟨token, query⟩ := pages.query
    exact ⟨token, by rw [query]; rfl⟩
  cases event with
  | start call asked publication arguments answer self fresh =>
    simp only [Composers.readsOf] at member
    split at member
    next frame _ idle started _ =>
      obtain ⟨_, found, same⟩ := List.mem_map.mp member
      cases same
      obtain ⟨source, present, base⟩ := startFrame_filters started
      have captures := captureReads_scope present (by simp [base]) found
      refine ⟨⟨sourceId arguments, ?_, ?_⟩, ?_, ?_⟩
      · simp only [Origins.step, Origins.opens]
        split <;> exact Origins.begins_calls
      · rw [← source]
        exact captures.within ((captureReads_pairwise frame).1 read found)
      · intro node impossible
        cases (congrArg Phase.node? idle).symm.trans impossible
      · intro _ _ impossible
        cases idle.symm.trans impossible
    next => cases member
  | recapture call answer self fresh =>
    simp only [Composers.readsOf] at member
    split at member
    next asked frame resuming =>
      split at member
      next =>
        obtain ⟨_, found, same⟩ := List.mem_map.mp member
        cases same
        have resumes := traced.resuming call caller frame resuming
        have captures := captureReads_scope resumes.named (fun _ _ => resumes.coverage) found
        have scope : (state.calls call).scope? = some (caller, frame.filters) :=
          congrArg Phase.scope? resuming
        refine ⟨⟨_, ?_, captures.within ((captureReads_pairwise frame).1 read found)⟩, ?_, ?_⟩
        · simp only [Origins.step, Origins.opens]
          split <;> exact traced.calls call caller _ scope
        · intro node impossible
          cases (congrArg Phase.node? resuming).symm.trans impossible
        · intro _ _ _
          obtain ⟨base, based⟩ := Option.ne_none_iff_exists'.mp resumes.base
          obtain ⟨bookmark, query⟩ := captures.resumes base based
          exact ⟨bookmark, by rw [query]; rfl⟩
      next => cases member
    next => cases member
  | readBack call answer self =>
    simp only [Composers.readsOf] at member
    split at member
    next asked binding node works =>
      obtain ⟨_, found, same⟩ := List.mem_map.mp member
      cases same
      have held : (state.calls call).node? = some node := congrArg Phase.node? works
      have scope : (state.calls call).scope? = some (caller, node.frame.filters) :=
        congrArg Phase.scope? works
      have names := validateCursorFrame_names (kept.valid node (kept.held call node held))
      rw [asked_readBack] at found
      obtain ⟨_, -, asks⟩ := (readBackOwners_pairwise _ _ _ names).1 _ found
      refine continued held scope ?_ (asks.pages (named held))
      intro _ _ impossible
      cases works.symm.trans impossible
    next => cases member
  | compose call answer =>
    simp only [Composers.readsOf] at member
    split at member
    next work works =>
      obtain ⟨_, found, same⟩ := List.mem_map.mp member
      cases same
      have held : (state.calls call).node? = some work.node := congrArg Phase.node? works
      have scope : (state.calls call).scope? = some (work.caller, work.node.frame.filters) :=
        congrArg Phase.scope? works
      refine continued held scope ?_ ((compose_continues _ _ _ found).2.pages (named held))
      intro _ _ impossible
      cases works.symm.trans impossible
    next => cases member
  | resume | page | finalize | commit | abandon => cases member

/-- A publication of one source that is bookmarked, and a call that resumes from the bookmark. -/
def sourceThenResumed : List ComposerEvent :=
  [.start 0 sampleCaller true (Finmap.singleton "sourceId" (.text "source")) publicationAnswer
      sampleSelf ⟨true, none, 0, 0, 1, 2⟩,
    .compose 0 publicationAnswer, .finalize 0 true (sampleClock 0) none 3,
    .resume 1 sampleCaller ∅ 3 0]

def recaptured : ComposerEvent :=
  .recapture 1 publicationAnswer sampleSelf ⟨true, none, 0, 0, 5, 6⟩

theorem ownerReads_within_resumed :
    ∃ state origins read, (tracedSystem sampleCodec).replay (fun _ _ => true)
        (.initial sampleCodec 0, .none) sourceThenResumed = some (state, origins) ∧
      (sampleCaller, read) ∈ state.readsOf recaptured ∧
      (read.resource sampleCaller).attributes.lookup "sourceRef" = some "source" ∧
      ∃ bookmark, read.query.arguments =
        .obj [("limit", .num 100), ("resumeFrom", .str bookmark)] := by
  obtain ⟨⟨state, origins⟩, replayed, reached, checked⟩ := @System.exists_reachable _ _
    (tracedSystem sampleCodec) System.always (fun _ _ => true) sourceThenResumed
    (fun _ _ _ _ => trivial) (.initial sampleCodec 0, .none) ⟨⟨0, rfl⟩, rfl⟩
    (fun traced => decide (
      (∃ pair ∈ traced.1.readsOf recaptured, pair.1 = sampleCaller ∧
        pair.2.producer = .ingestion) ∧
      ((tracedSystem sampleCodec).step traced recaptured).map (fun after => after.2.calls 1) =
        some (some (sampleCaller, some "source")) ∧
      (traced.1.calls 1).scope?.isSome = true ∧ (traced.1.calls 1).node? = none))
    (by decide +kernel)
  obtain ⟨⟨⟨_, read⟩, member, rfl, ingestion⟩, known, working, new⟩ := of_decide_eq_true checked
  obtain ⟨⟨next, after⟩, stepped, from'⟩ := Option.map_eq_some_iff.mp known
  obtain ⟨⟨source, here, within⟩, -, resumes⟩ := ownerReads_within reached stepped member
  obtain rfl : source = some "source" := by
    have same := here.symm.trans from'
    exact congrArg Prod.snd (Option.some.inj same)
  refine ⟨state, origins, read, replayed, member, ?_, ?_⟩
  · rw [within.sourceRef, ingestion]
    rfl
  · cases phase : state.calls 1 with
    | resuming caller frame => exact resumes caller frame phase
    | idle | returned =>
      rw [phase] at working
      cases working
    | loaded | holding | composed | ready =>
      rw [phase] at new
      cases new

end OufMcp.Cursor
