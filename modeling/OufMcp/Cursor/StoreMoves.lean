import OufMcp.Cursor.Store

/-!
# What the store transactions do

Every transaction that succeeds is one of a few moves of the store, stated with
the tests it passed.  Results about the store split these moves and never look
into the transactions again.
-/

namespace OufMcp.Cursor

open Ledger (UUID Time)
open Relational

variable {codec : Codec} {store after : Store codec} {binding : CursorBinding} {now : Time}
  {victim : Option UUID} {locked : Bool} {vector : PublicationVector}

/-- A session that has expired is gone with all its nodes. -/
structure Store.Expires (store : Store codec) (session : UUID) (now : Time)
    (after : Store codec) : Prop where
  row : ∃ row, store.sessions.get session = some row ∧ row.expiresAt ≤ now
  sessions : after.sessions = store.sessions.retain fun key _ => decide (key ≠ session)
  nodes : after.nodes = store.nodes.retain fun _ node => decide (node.session ≠ session)
  bookmarks : after.bookmarks = store.bookmarks

structure Store.Opens (store : Store codec) (node : CursorNode) (binding : CursorBinding)
    (after : Store codec) : Prop where
  valid : validateCursorFrame codec node.frame = .ok ()
  first : node.frame.pageNumber = 0
  sessionRoom :
    (tally store.sessionBindings binding.tenantId binding.principalId).below sessionLimits
  nodeRoom : (tally store.nodeBindings binding.tenantId binding.principalId).below nodeLimits
  newSession : store.sessions.get node.session = none
  newNode : store.nodes.get node.token = none
  sessions : store.sessions.Puts node.session ⟨binding, node.expiresAt⟩ after.sessions
  nodes : store.nodes.Puts node.token ⟨node.session, 0, node.frame, none, none⟩ after.nodes
  bookmarks : after.bookmarks = store.bookmarks

/-- What a commit found at its token and made of it. -/
inductive Store.Commits (store : Store codec) (token candidate : UUID) (binding : CursorBinding)
    (digest : PageDigest) (node : CursorNodeRow) :
    Option CursorFrame → Option UUID → Store codec → Prop where
  | same (committed : node.pageDigest = some digest) (last : node.nextToken = none) :
      Commits store token candidate binding digest node none none store
  | again {frame : CursorFrame} {nextToken : UUID} {retained : CursorNodeRow}
      (committed : node.pageDigest = some digest) (link : node.nextToken = some nextToken)
      (next : store.nodes.get nextToken = some retained) (agrees : retained.metadata = frame) :
      Commits store token candidate binding digest node (some frame) (some nextToken) store
  | closes {nodes : Table UUID (operationalCursorNode codec)} (pending : node.pageDigest = none)
      (put : store.nodes.Puts token { node with pageDigest := some digest } nodes) :
      Commits store token candidate binding digest node none node.nextToken
        { store with nodes }
  | continued {frame : CursorFrame} {inserted nodes : Table UUID (operationalCursorNode codec)}
      (pending : node.pageDigest = none) (valid : validateCursorFrame codec frame = .ok ())
      (number : frame.pageNumber = node.pageNumber + 1)
      (scope : sameCursorScope node.metadata frame = true)
      (room : (tally store.nodeBindings binding.tenantId binding.principalId).below nodeLimits)
      (newNode : store.nodes.get candidate = none)
      (insert : store.nodes.Puts candidate
        ⟨node.session, frame.pageNumber, frame, none, none⟩ inserted)
      (put : inserted.Puts token
        { node with pageDigest := some digest, nextToken := some candidate } nodes) :
      Commits store token candidate binding digest node (some frame) (some candidate)
        { store with nodes }

/-- The tests on the parent that a bookmark which has moved passes. -/
inductive Store.Descends (store : Store codec) (now : Time) (binding : CursorBinding)
    (vector : PublicationVector) : Option UUID → Prop where
  | root (unowned : ∀ position ∈ vector.owners, position.parentBookmark = "") :
      Descends store now binding vector none
  | child {token : UUID} {old : PublicationBookmark}
      (loaded : store.loadPublicationBookmark now token binding = .ok old)
      (lineage : publicationVectorLineage codec old.vector vector = true)
      (moved : samePublicationBoundaries codec old.vector vector = false) :
      Descends store now binding vector (some token)

/-- What a put answered and made of the store. -/
inductive Store.Publishes (store : Store codec) (clock : Store.PutClock) (fresh : UUID)
    (binding : CursorBinding) (vector : PublicationVector) (parent : Option UUID) :
    PublicationBookmark → Store codec → Prop where
  | idle {token : UUID} {old : PublicationBookmark} (named : parent = some token)
      (loaded : store.loadPublicationBookmark clock.parentAt token binding = .ok old)
      (same : samePublicationBoundaries codec old.vector vector = true) :
      Publishes store clock fresh binding vector parent old store
  | reuses {token : UUID} {rest : List UUID} {old : PublicationBookmark}
      (descends : store.Descends clock.parentAt binding vector parent)
      (found : store.equivalentBookmarks clock.selectedAt binding
        (⟨vector.filters⟩, ⟨vector.owners.map (·.bookmark)⟩) parent = token :: rest)
      (loaded : store.loadPublicationBookmark clock.reloadedAt token binding = .ok old) :
      Publishes store clock fresh binding vector parent old store
  | inserts {victim : Option UUID} {swept : Store codec}
      {bookmarks : Table UUID (operationalPublicationBookmark codec)}
      (descends : store.Descends clock.parentAt binding vector parent)
      (none : store.equivalentBookmarks clock.selectedAt binding
        (⟨vector.filters⟩, ⟨vector.owners.map (·.bookmark)⟩) parent = [])
      (expired : store.expireBookmark clock.sweptAt victim = .ok swept)
      (new : swept.bookmarks.get fresh = Option.none)
      (put : swept.bookmarks.Puts fresh ⟨parent, binding, ⟨vector.filters⟩,
        ⟨vector.owners.map (·.bookmark)⟩, vector, clock.insertedAt,
        clock.insertedAt + bookmarkLifetime⟩ bookmarks) :
      Publishes store clock fresh binding vector parent
        ⟨fresh, parent, vector, clock.insertedAt + bookmarkLifetime⟩ { swept with bookmarks }

namespace Store

/-! ## Inverting the transactions -/

theorem findNode_eq_some {token : UUID} {node : CursorNodeRow} {session : CursorSession} :
    store.findNode token binding = some (node, session) ↔
      store.nodes.get token = some node ∧ store.sessions.get node.session = some session ∧
        session.binding = binding := by
  unfold findNode
  cases foundNode : store.nodes.get token with
  | none => simp
  | some row =>
    cases foundSession : store.sessions.get row.session with
    | none =>
      simp only [Option.bind_eq_bind, Option.bind_some, foundSession, Option.bind_none]
      constructor
      · exact nofun
      · rintro ⟨same, found, -⟩
        cases same
        cases foundSession.symm.trans found
    | some held =>
      simp only [Option.bind_eq_bind, Option.bind_some, foundSession]
      constructor
      · intro found
        split at found
        next same =>
          cases found
          exact ⟨rfl, foundSession, same⟩
        next => cases found
      · rintro ⟨same, found, bound⟩
        cases same
        cases foundSession.symm.trans found
        rw [if_pos bound]

theorem expireSession_eq_ok (done : store.expireSession now victim = .ok after) :
    after = store ∨ ∃ session, victim = some session ∧ store.Expires session now after := by
  cases victim with
  | none =>
    rw [expireSession, pure_eq_ok] at done
    exact .inl done.symm
  | some session =>
    simp only [expireSession, bind_eq_ok, demand_eq_ok, ensure_eq_ok, pure_eq_ok] at done
    obtain ⟨row, found, _, expired, rfl⟩ := done
    exact .inr ⟨session, rfl, ⟨row, found, expired⟩, rfl, rfl, rfl⟩

theorem createIncidentCursor_eq_ok {sweptAt insertedAt : Time} {token session : UUID}
    {frame : CursorFrame} {node : CursorNode}
    (done : store.createIncidentCursor locked victim sweptAt insertedAt token session binding
      frame = .ok (node, after)) :
    node = ⟨token, session, frame, insertedAt + cursorLifetime⟩ ∧
      ∃ swept, store.expireSession sweptAt victim = .ok swept ∧ swept.Opens node binding after := by
  simp only [createIncidentCursor, cursorNodeCapacity, bind_eq_ok, ensure_eq_ok, demand_eq_ok,
    pure_eq_ok, Prod.mk.injEq, Table.insert?_eq_some] at done
  obtain ⟨_, ⟨-, first⟩, _, valid, _, -, swept, expired, _, sessionRoom, _, nodeRoom, sessions,
    ⟨newSession, putSession⟩, nodes, ⟨newNode, putNode⟩, rfl, rfl⟩ := done
  exact ⟨rfl, swept, expired, valid, first, sessionRoom, nodeRoom, newSession, newNode,
    putSession, putNode, rfl⟩

theorem commitIncidentCursorPage_eq_ok {candidate token : UUID} {digest : PageDigest}
    {next : Option CursorFrame} {result : Option UUID}
    (done : store.commitIncidentCursorPage locked now candidate token binding digest next =
      .ok (result, after)) :
    ∃ node session, store.findNode token binding = some (node, session) ∧
      session.expiresAt > now ∧
      store.Commits token candidate binding digest node next result after := by
  simp only [commitIncidentCursorPage, cursorNodeCapacity, bind_eq_ok, ensure_eq_ok,
    demand_eq_ok, Prod.exists] at done
  obtain ⟨_, -, _, checked, _, -, node, session, found, _, live, done⟩ := done
  refine ⟨node, session, found, live, ?_⟩
  cases pending : node.pageDigest with
  | none =>
    cases next with
    | none =>
      simp only [pending, bind_eq_ok, demand_eq_ok, pure_eq_ok, Prod.mk.injEq] at done
      obtain ⟨nodes, put, rfl, rfl⟩ := done
      exact .closes pending put
    | some frame =>
      simp only [pending, bind_eq_ok, ensure_eq_ok, demand_eq_ok, pure_eq_ok,
        Prod.mk.injEq, Table.insert?_eq_some] at done
      obtain ⟨_, ⟨number, scope⟩, _, room, inserted, ⟨newNode, insert⟩, nodes, put, rfl,
        rfl⟩ := done
      exact .continued pending checked number scope room newNode insert put
  | some existing =>
    cases next with
    | none =>
      simp only [pending, bind_eq_ok, ensure_eq_ok, pure_eq_ok, Prod.mk.injEq] at done
      obtain ⟨_, ⟨rfl, last⟩, rfl, rfl⟩ := done
      exact .same pending last
    | some frame =>
      simp only [pending, bind_eq_ok, ensure_eq_ok, demand_eq_ok, pure_eq_ok,
        Prod.mk.injEq] at done
      obtain ⟨_, rfl, nextToken, link, retained, next, _, agrees, rfl, rfl⟩ := done
      exact .again pending link next agrees

/-- A cursor that is loaded is a valid node of a session that has not expired. -/
theorem loadIncidentCursor_eq_ok {token : UUID} {node : CursorNode}
    (done : store.loadIncidentCursor now token binding = .ok node) :
    ∃ row held, store.nodes.get token = some row ∧ store.sessions.get row.session = some held ∧
      held.binding = binding ∧ validateCursorFrame codec row.metadata = .ok () ∧
      node = ⟨token, row.session, row.metadata, held.expiresAt⟩ := by
  simp only [loadIncidentCursor, bind_eq_ok, ensure_eq_ok, demand_eq_ok, pure_eq_ok,
    Prod.exists] at done
  obtain ⟨_, -, row, held, found, _, -, _, -, _, valid, rfl⟩ := done
  obtain ⟨present, session, bound⟩ := findNode_eq_some.mp found
  exact ⟨row, held, present, session, bound, valid, rfl⟩

theorem expireBookmark_eq_ok (done : store.expireBookmark now victim = .ok after) :
    after.sessions = store.sessions ∧ after.nodes = store.nodes ∧
      ∀ token row, after.bookmarks.get token = some row ↔
        store.bookmarks.get token = some row ∧ (victim = some token → row.expiresAt > now) := by
  cases victim with
  | none =>
    rw [expireBookmark, pure_eq_ok] at done
    subst done
    exact ⟨rfl, rfl, fun token row => by simp⟩
  | some chosen =>
    simp only [expireBookmark, bind_eq_ok, demand_eq_ok, ensure_eq_ok, pure_eq_ok] at done
    obtain ⟨held, found, _, expired, rfl⟩ := done
    refine ⟨rfl, rfl, fun token row => ?_⟩
    rw [Table.get_retain, Option.filter_eq_some_iff, decide_eq_true_eq]
    constructor
    · rintro ⟨present, other⟩
      refine ⟨present, fun same => absurd (Option.some.inj same).symm other⟩
    · rintro ⟨present, live⟩
      refine ⟨present, ?_⟩
      rintro rfl
      obtain rfl := Option.some.inj (found.symm.trans present)
      exact absurd (live rfl) (not_lt.mpr expired)

end Store

/-! ## Bookmarks -/

theorem canonicalPublicationFilters_eq_ok {filters canonical : Filters}
    (done : canonicalPublicationFilters codec filters = .ok canonical) : canonical = filters := by
  simp only [canonicalPublicationFilters, bind_eq_ok, ensure_eq_ok, pure_eq_ok] at done
  obtain ⟨_, -, _, -, same⟩ := done
  exact same.symm

theorem canonicalPublicationVector_eq_ok {vector canonical : PublicationVector}
    (done : canonicalPublicationVector codec vector = .ok canonical) :
    canonical = vector ∧ vector.owners.map (·.name) = [.gateway, .ingestion] := by
  simp only [canonicalPublicationVector, bind_eq_ok, ensure_eq_ok, pure_eq_ok] at done
  obtain ⟨_, ⟨-, names⟩, filters, accepted, _, -, _, -, rfl⟩ := done
  obtain rfl := canonicalPublicationFilters_eq_ok accepted
  exact ⟨rfl, names⟩

theorem publicationHashes_eq_ok {hashes : Digest Filters × Digest (List String)}
    (done : publicationHashes codec vector = .ok hashes) :
    hashes = (⟨vector.filters⟩, ⟨vector.owners.map (·.bookmark)⟩) := by
  simp only [publicationHashes, bind_eq_ok, pure_eq_ok] at done
  obtain ⟨canonical, accepted, rfl⟩ := done
  obtain ⟨rfl, -⟩ := canonicalPublicationVector_eq_ok accepted
  rfl

/-- Continuing a vector keeps its filters and names its owner bookmarks as parents. -/
theorem publicationVectorLineage_eq_true {previous next : PublicationVector}
    (lineage : publicationVectorLineage codec previous next = true) :
    previous.filters = next.filters ∧
      next.owners.map (·.parentBookmark) = previous.owners.map (·.bookmark) := by
  unfold publicationVectorLineage at lineage
  split at lineage
  next old current canonicalOld canonicalNext =>
    obtain ⟨rfl, -⟩ := canonicalPublicationVector_eq_ok canonicalOld
    obtain ⟨rfl, -⟩ := canonicalPublicationVector_eq_ok canonicalNext
    exact of_decide_eq_true lineage
  next => cases lineage

namespace Store

theorem loadPublicationBookmark_eq_ok {token : UUID} {bookmark : PublicationBookmark}
    (done : store.loadPublicationBookmark now token binding = .ok bookmark) :
    ∃ row, store.bookmarks.get token = some row ∧ row.binding = binding ∧ row.expiresAt > now ∧
      bookmark = ⟨token, row.parentToken, row.metadata, row.expiresAt⟩ := by
  simp only [loadPublicationBookmark, bind_eq_ok, demand_eq_ok, ensure_eq_ok, pure_eq_ok] at done
  obtain ⟨row, found, _, ⟨principal, tenant, fingerprint⟩, _, ⟨policy, manifest⟩, _, live, _, -,
    vector, canonical, _, -, _, -, rfl⟩ := done
  obtain ⟨rfl, -⟩ := canonicalPublicationVector_eq_ok canonical
  refine ⟨row, found, ?_, live, rfl⟩
  cases bound : row.binding
  cases binding
  simp_all

theorem publicationParent_eq_some {parent : Option UUID} {old : PublicationBookmark}
    (done : store.publicationParent now binding vector parent = .ok (some old)) :
    ∃ token, parent = some token ∧ store.loadPublicationBookmark now token binding = .ok old ∧
      samePublicationBoundaries codec old.vector vector = true := by
  cases parent with
  | none =>
    simp only [publicationParent, bind_eq_ok, pure_eq_ok] at done
    obtain ⟨_, -, impossible⟩ := done
    cases impossible
  | some token =>
    simp only [publicationParent, bind_eq_ok, ensure_eq_ok, pure_eq_ok] at done
    obtain ⟨loaded, load, _, -, chosen⟩ := done
    split at chosen
    next same =>
      cases chosen
      exact ⟨token, rfl, load, same⟩
    next => cases chosen

theorem publicationParent_eq_none {parent : Option UUID}
    (done : store.publicationParent now binding vector parent = .ok none) :
    store.Descends now binding vector parent := by
  cases parent with
  | none =>
    simp only [publicationParent, bind_eq_ok, ensure_eq_ok] at done
    obtain ⟨_, unowned, -⟩ := done
    exact .root unowned
  | some token =>
    simp only [publicationParent, bind_eq_ok, ensure_eq_ok, pure_eq_ok] at done
    obtain ⟨loaded, load, _, lineage, chosen⟩ := done
    split at chosen
    next => cases chosen
    next moved => exact .child load lineage (Bool.not_eq_true _ ▸ moved)

theorem putPublicationBookmark_eq_ok {clock : PutClock} {fresh : UUID} {parent : Option UUID}
    {bookmark : PublicationBookmark}
    (done : store.putPublicationBookmark locked clock victim fresh binding vector parent =
      .ok (bookmark, after)) :
    canonicalPublicationVector codec vector = .ok vector ∧
      store.Publishes clock fresh binding vector parent bookmark after := by
  simp only [putPublicationBookmark, bind_eq_ok, ensure_eq_ok] at done
  obtain ⟨_, -, normalized, canonical, hashes, hashed, _, -, idle, parentTest, done⟩ := done
  obtain rfl : vector = normalized := (canonicalPublicationVector_eq_ok canonical).1.symm
  obtain rfl := publicationHashes_eq_ok hashed
  refine ⟨canonical, ?_⟩
  cases idle with
  | some old =>
    simp only [pure_eq_ok, Prod.mk.injEq] at done
    obtain ⟨rfl, rfl⟩ := done
    obtain ⟨token, named, loaded, same⟩ := publicationParent_eq_some parentTest
    exact .idle named loaded same
  | none =>
    have descends := publicationParent_eq_none parentTest
    cases found : store.equivalentBookmarks clock.selectedAt binding
        (⟨vector.filters⟩, ⟨vector.owners.map (·.bookmark)⟩) parent with
    | cons token rest =>
      simp only [found, bind_eq_ok, pure_eq_ok, Prod.mk.injEq] at done
      obtain ⟨old, loaded, rfl, rfl⟩ := done
      exact .reuses descends found loaded
    | nil =>
      simp only [found, bind_eq_ok, ensure_eq_ok, demand_eq_ok, pure_eq_ok, Prod.mk.injEq,
        Table.insert?_eq_some] at done
      obtain ⟨swept, expired, _, -, bookmarks, ⟨new, put⟩, rfl, rfl⟩ := done
      exact .inserts descends found expired new put

end Store

end OufMcp.Cursor
