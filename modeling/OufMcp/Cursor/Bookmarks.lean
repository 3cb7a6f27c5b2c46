import OufMcp.Cursor.StoreRun

/-!
# Lineage and idempotence of publication bookmarks

A stored bookmark continues its parent, as long as the parent is stored.  Live
bookmarks are determined by their binding, filters, boundaries and parent, so a
put that is repeated answers the same token.
-/

namespace OufMcp.Cursor

open Ledger (UUID Time)
open Relational Transition

variable {codec : Codec} {store after : Store codec} {binding : CursorBinding} {now : Time}
  {clock : PutClock} {fresh : UUID}

/-- `next` starts where `previous` ended, for both owners in their order. -/
structure PublicationVector.Continues (previous next : PublicationVector) : Prop where
  filters : next.filters = previous.filters
  previousNames : previous.owners.map (·.name) = [.gateway, .ingestion]
  nextNames : next.owners.map (·.name) = [.gateway, .ingestion]
  parents : next.owners.map (·.parentBookmark) = previous.owners.map (·.bookmark)
  moved : next.owners.map (·.bookmark) ≠ previous.owners.map (·.bookmark)

variable {vector : PublicationVector}

/-- What determines a live bookmark. -/
structure BookmarkRow.Matches (row : BookmarkRow) (binding : CursorBinding)
    (vector : PublicationVector) (parent : Option UUID) : Prop where
  binding : row.binding = binding
  filters : row.metadata.filters = vector.filters
  bookmarks : row.metadata.owners.map (·.bookmark) = vector.owners.map (·.bookmark)
  parentToken : row.parentToken = parent

theorem BookmarkRow.Matches.common {first second : BookmarkRow} {parent : Option UUID}
    (one : first.Matches binding vector parent) (other : second.Matches binding vector parent) :
    first.Matches second.binding second.metadata second.parentToken :=
  ⟨one.binding.trans other.binding.symm, one.filters.trans other.filters.symm,
    one.bookmarks.trans other.bookmarks.symm, one.parentToken.trans other.parentToken.symm⟩

theorem BookmarkRow.Matches.symm {first second : BookmarkRow}
    (same : first.Matches second.binding second.metadata second.parentToken) :
    second.Matches first.binding first.metadata first.parentToken :=
  ⟨same.binding.symm, same.filters.symm, same.bookmarks.symm, same.parentToken.symm⟩

theorem samePublicationBoundaries_eq_true {previous next : PublicationVector} :
    samePublicationBoundaries codec previous next = true ↔
      publicationVectorLineage codec previous next = true ∧
        previous.owners.map (·.bookmark) = next.owners.map (·.bookmark) := by
  rw [samePublicationBoundaries, Bool.and_eq_true, decide_eq_true_eq]

theorem continues_of_lineage {previous next : PublicationVector}
    (lineage : publicationVectorLineage codec previous next = true)
    (moved : samePublicationBoundaries codec previous next = false) :
    previous.Continues next := by
  obtain ⟨filters, parents⟩ := publicationVectorLineage_eq_true lineage
  have names : previous.owners.map (·.name) = [.gateway, .ingestion] ∧
      next.owners.map (·.name) = [.gateway, .ingestion] := by
    unfold publicationVectorLineage at lineage
    split at lineage
    next _ _ old current =>
      exact ⟨(canonicalPublicationVector_eq_ok old).2, (canonicalPublicationVector_eq_ok current).2⟩
    next => cases lineage
  refine ⟨filters.symm, names.1, names.2, parents, fun same => ?_⟩
  have still := samePublicationBoundaries_eq_true.mpr ⟨lineage, same.symm⟩
  rw [moved] at still
  cases still

/-! ## Stored bookmarks -/

namespace Store

/-- A bookmark stored with the digests of its own vector. -/
structure Lineage (store : Store codec) : Prop where
  hashed : ∀ token row, store.bookmarks.get token = some row →
    row.scopeDigest = ⟨row.metadata.filters⟩ ∧
      row.vectorDigest = ⟨row.metadata.owners.map (·.bookmark)⟩
  root : ∀ token row, store.bookmarks.get token = some row → row.parentToken = none →
    ∀ position ∈ row.metadata.owners, position.parentBookmark = ""
  child : ∀ token row parent old, store.bookmarks.get token = some row →
    row.parentToken = some parent → store.bookmarks.get parent = some old →
      row.binding = old.binding ∧ old.metadata.Continues row.metadata

theorem mem_equivalentBookmarks {hashes : Digest Filters × Digest (List String)}
    {parent : Option UUID} {token : UUID} :
    token ∈ store.equivalentBookmarks now binding hashes parent ↔
      ∃ row, store.bookmarks.get token = some row ∧ row.binding = binding ∧
        row.scopeDigest = hashes.1 ∧ row.vectorDigest = hashes.2 ∧ row.parentToken = parent ∧
        row.expiresAt > now := by
  unfold equivalentBookmarks
  simp only [List.mem_map, List.mem_insertionSort, Prod.exists, Table.mem_select,
    decide_eq_true_eq]
  constructor
  · rintro ⟨key, row, ⟨found, tests⟩, rfl⟩
    exact ⟨row, found, tests⟩
  · rintro ⟨row, found, tests⟩
    exact ⟨token, row, ⟨found, tests⟩, rfl⟩

theorem Lineage.mem_equivalentBookmarks_iff (lineage : store.Lineage) {parent : Option UUID}
    {token : UUID} :
    token ∈ store.equivalentBookmarks now binding
        (⟨vector.filters⟩, ⟨vector.owners.map (·.bookmark)⟩) parent ↔
      ∃ row, store.bookmarks.get token = some row ∧ row.Matches binding vector parent ∧
        row.expiresAt > now := by
  rw [mem_equivalentBookmarks]
  constructor
  · rintro ⟨row, found, bound, scope, boundaries, parentToken, live⟩
    obtain ⟨hashedScope, hashedVector⟩ := lineage.hashed token row found
    rw [hashedScope] at scope
    rw [hashedVector] at boundaries
    exact ⟨row, found, ⟨bound, congrArg Digest.content scope, congrArg Digest.content boundaries,
      parentToken⟩, live⟩
  · rintro ⟨row, found, same, live⟩
    obtain ⟨hashedScope, hashedVector⟩ := lineage.hashed token row found
    refine ⟨row, found, same.binding, ?_, ?_, same.parentToken, live⟩
    · rw [hashedScope, same.filters]
    · rw [hashedVector, same.bookmarks]

theorem Publishes.get_bookmarks {parent : Option UUID} {bookmark : PublicationBookmark}
    (published : store.Publishes clock fresh binding vector parent bookmark after) {token : UUID}
    {row : BookmarkRow} (found : after.bookmarks.get token = some row) :
    store.bookmarks.get token = some row ∨
      (token = fresh ∧ bookmark.token = fresh ∧ row = ⟨parent, binding, ⟨vector.filters⟩,
        ⟨vector.owners.map (·.bookmark)⟩, vector, clock.insertedAt,
        clock.insertedAt + bookmarkLifetime⟩ ∧
        store.Descends clock.parentAt binding vector parent ∧
        store.equivalentBookmarks clock.selectedAt binding
          (⟨vector.filters⟩, ⟨vector.owners.map (·.bookmark)⟩) parent = []) := by
  cases published with
  | idle => exact .inl found
  | reuses => exact .inl found
  | inserts descends none expired _ put =>
    rw [put.get] at found
    split at found
    next same =>
      cases found
      exact .inr ⟨same, rfl, rfl, descends, none⟩
    next => exact .inl (((expireBookmark_eq_ok expired).2.2 token row).mp found).1

theorem Publishes.filters {parent : Option UUID} {bookmark : PublicationBookmark}
    (published : store.Publishes clock fresh binding vector parent bookmark after) :
    ∃ row, after.bookmarks.get bookmark.token = some row ∧
      row.metadata.filters = vector.filters := by
  cases published with
  | idle named loaded same =>
    obtain ⟨row, found, -, -, rfl⟩ := loadPublicationBookmark_eq_ok loaded
    have lineage := (samePublicationBoundaries_eq_true.mp same).1
    exact ⟨row, found, (publicationVectorLineage_eq_true lineage).1⟩
  | @reuses token rest old descends listed loaded =>
    obtain ⟨row, found, -, scope, -⟩ :=
      mem_equivalentBookmarks.mp (listed ▸ List.mem_cons_self : token ∈ _)
    simp only [loadPublicationBookmark, bind_eq_ok, demand_eq_ok, ensure_eq_ok,
      pure_eq_ok] at loaded
    obtain ⟨again, stored, _, -, _, -, _, -, _, -, _, canonical, _, hashed, _, same, rfl⟩ := loaded
    obtain rfl := Option.some.inj (found.symm.trans stored)
    obtain ⟨rfl, -⟩ := canonicalPublicationVector_eq_ok canonical
    obtain rfl := publicationHashes_eq_ok hashed
    have digests : (⟨row.metadata.filters⟩ : Digest Filters) = ⟨vector.filters⟩ :=
      (congrArg Prod.fst same).trans scope
    exact ⟨row, found, congrArg Digest.content digests⟩
  | inserts descends none expired new put => exact ⟨_, put.get_self, rfl⟩

theorem Commits.bookmarks {token candidate : UUID} {digest : PageDigest} {node : CursorNodeRow}
    {next : Option CursorFrame} {result : Option UUID}
    (committed : store.Commits token candidate binding digest node next result after) :
    after.bookmarks = store.bookmarks := by
  cases committed with
  | same => rfl
  | again => rfl
  | closes => rfl
  | continued => rfl

theorem Descends.of_parent {parent : UUID}
    (descends : store.Descends now binding vector (some parent)) :
    ∃ old, store.bookmarks.get parent = some old ∧ old.binding = binding ∧
      samePublicationBoundaries codec old.metadata vector = false ∧
      old.metadata.Continues vector := by
  cases descends with
  | child loaded lineage moved =>
    obtain ⟨row, found, bound, -, rfl⟩ := loadPublicationBookmark_eq_ok loaded
    exact ⟨row, found, bound, moved, continues_of_lineage lineage moved⟩

theorem Publishes.parent_stored {fresh parent : UUID} {bookmark : PublicationBookmark}
    (published : store.Publishes clock fresh binding vector (some parent) bookmark after) :
    ∃ old, store.bookmarks.get parent = some old := by
  cases published with
  | idle named loaded _ =>
    obtain ⟨row, found, -⟩ := loadPublicationBookmark_eq_ok loaded
    exact ⟨row, Option.some.inj named ▸ found⟩
  | reuses descends =>
    obtain ⟨old, found, -⟩ := descends.of_parent
    exact ⟨old, found⟩
  | inserts descends =>
    obtain ⟨old, found, -⟩ := descends.of_parent
    exact ⟨old, found⟩

theorem Publishes.get_live {parent : Option UUID} {bookmark : PublicationBookmark}
    (published : store.Publishes clock fresh binding vector parent bookmark after)
    (swept : clock.sweptAt ≤ clock.insertedAt) {token : UUID} {row : BookmarkRow}
    (found : store.bookmarks.get token = some row) (live : clock.insertedAt < row.expiresAt) :
    after.bookmarks.get token = some row := by
  cases published with
  | idle => exact found
  | reuses => exact found
  | inserts _ _ expired new put =>
    have kept := ((expireBookmark_eq_ok expired).2.2 token row).mpr
      ⟨found, fun _ => swept.trans_lt live⟩
    rw [put.get_of_ne, kept]
    rintro rfl
    cases new.symm.trans kept

theorem Publishes.answered {parent : Option UUID} {bookmark : PublicationBookmark}
    (published : store.Publishes clock fresh binding vector parent bookmark after) :
    ∃ row, after.bookmarks.get bookmark.token = some row ∧ row.expiresAt = bookmark.expiresAt := by
  cases published with
  | idle _ loaded _ =>
    obtain ⟨row, found, -, -, rfl⟩ := loadPublicationBookmark_eq_ok loaded
    exact ⟨row, found, rfl⟩
  | reuses _ _ loaded =>
    obtain ⟨row, found, -, -, rfl⟩ := loadPublicationBookmark_eq_ok loaded
    exact ⟨row, found, rfl⟩
  | inserts _ _ _ _ put => exact ⟨_, put.get_self, rfl⟩

theorem Publishes.token_stored {parent : Option UUID} {bookmark : PublicationBookmark}
    (published : store.Publishes clock fresh binding vector parent bookmark after) :
    bookmark.token = fresh ∨ ∃ old, store.bookmarks.get bookmark.token = some old := by
  cases published with
  | idle _ loaded _ =>
    obtain ⟨row, found, -, -, rfl⟩ := loadPublicationBookmark_eq_ok loaded
    exact .inr ⟨row, found⟩
  | reuses _ _ loaded =>
    obtain ⟨row, found, -, -, rfl⟩ := loadPublicationBookmark_eq_ok loaded
    exact .inr ⟨row, found⟩
  | inserts => exact .inl rfl

theorem Lineage.publishes (lineage : store.Lineage) {clock : PutClock} {fresh : UUID}
    {binding : CursorBinding} {vector : PublicationVector} {parent : Option UUID}
    {bookmark : PublicationBookmark}
    (published : store.Publishes clock fresh binding vector parent bookmark after)
    -- No row names the token that is drawn now.
    (unnamed : ∀ token row, store.bookmarks.get token = some row → row.parentToken ≠ some fresh)
    (unstored : store.bookmarks.get fresh = none) : after.Lineage := by
  constructor
  case hashed =>
    intro token row found
    rcases published.get_bookmarks found with before | ⟨-, -, rfl, -⟩
    · exact lineage.hashed token row before
    · exact ⟨rfl, rfl⟩
  case root =>
    intro token row found orphan
    rcases published.get_bookmarks found with before | ⟨-, -, rfl, descends, -⟩
    · exact lineage.root token row before orphan
    · obtain rfl : parent = none := orphan
      cases descends with
      | root unowned => exact unowned
  case child =>
    intro token row origin old found named present
    have parentBefore : origin ≠ fresh → store.bookmarks.get origin = some old := by
      intro other
      rcases published.get_bookmarks present with before | ⟨same, -⟩
      · exact before
      · exact absurd same other
    rcases published.get_bookmarks found with before | ⟨-, -, rfl, descends, -⟩
    · have other : origin ≠ fresh := fun same => unnamed token row before (same ▸ named)
      exact lineage.child token row origin old before named (parentBefore other)
    · obtain rfl : parent = some origin := named
      obtain ⟨held, stored, bound, -, continues⟩ := descends.of_parent
      have other : origin ≠ fresh := by
        rintro rfl
        cases unstored.symm.trans stored
      obtain rfl := Option.some.inj (stored.symm.trans (parentBefore other))
      exact ⟨bound.symm, continues⟩

/-! ## Answers -/

/-- What an answer says about the rows it depends on, as long as they are stored. -/
inductive Answers (store : Store codec) (request : PutRequest) (token : UUID) : Prop where
  | idle (named : request.parent = some token)
      (same : ∀ row, store.bookmarks.get token = some row →
        samePublicationBoundaries codec row.metadata request.vector = true)
  | filed (held : ∀ row, store.bookmarks.get token = some row →
        row.Matches request.binding request.vector request.parent)
      (moved : ∀ parent old, request.parent = some parent →
        store.bookmarks.get parent = some old →
          samePublicationBoundaries codec old.metadata request.vector = false)

theorem Answers.mono {request : PutRequest} {token : UUID} (answers : store.Answers request token)
    (fewer : ∀ key row, (key = token ∨ request.parent = some key) →
      after.bookmarks.get key = some row → store.bookmarks.get key = some row) :
    after.Answers request token := by
  cases answers with
  | idle named same =>
    exact .idle named fun row found => same row (fewer token row (.inl rfl) found)
  | filed held moved =>
    exact .filed (fun row found => held row (fewer token row (.inl rfl) found))
      fun parent old named found => moved parent old named (fewer parent old (.inr named) found)

theorem Descends.moved {now : Time} {request : PutRequest} {parent : UUID} {old : BookmarkRow}
    (descends : store.Descends now request.binding request.vector request.parent)
    (named : request.parent = some parent) (found : store.bookmarks.get parent = some old) :
    samePublicationBoundaries codec old.metadata request.vector = false := by
  rw [named] at descends
  obtain ⟨held, stored, -, moved, -⟩ := descends.of_parent
  rwa [Option.some.inj (stored.symm.trans found)] at moved

theorem Publishes.answers (lineage : store.Lineage) {request : PutRequest}
    {bookmark : PublicationBookmark}
    (published : store.Publishes clock fresh request.binding request.vector request.parent bookmark
      after) (unstored : store.bookmarks.get fresh = none) :
    after.Answers request bookmark.token := by
  cases published with
  | idle named loaded same =>
    obtain ⟨row, found, -, -, rfl⟩ := loadPublicationBookmark_eq_ok loaded
    refine .idle named fun held present => ?_
    rwa [Option.some.inj (present.symm.trans found)]
  | reuses descends found loaded =>
    obtain ⟨row, stored, -, -, rfl⟩ := loadPublicationBookmark_eq_ok loaded
    refine .filed (fun held present => ?_) fun parent old named => descends.moved named
    obtain ⟨other, there, same, -⟩ :=
      lineage.mem_equivalentBookmarks_iff.mp (found ▸ List.mem_cons_self ..)
    rwa [Option.some.inj (present.symm.trans there)]
  | inserts descends none expired _ put =>
    refine .filed (fun held present => ?_) fun parent old named present => ?_
    · obtain rfl := Option.some.inj (put.get_self.symm.trans present)
      exact ⟨rfl, rfl, rfl, rfl⟩
    · have other : parent ≠ fresh := by
        rintro rfl
        obtain ⟨held, stored, -⟩ := (named ▸ descends).of_parent
        cases unstored.symm.trans stored
      rw [put.get_of_ne other] at present
      exact descends.moved named (((expireBookmark_eq_ok expired).2.2 parent old).mp present).1

/-- A repeated put answers the token it answered before, while that is live. -/
theorem Answers.token_eq {request : PutRequest} {token fresh : UUID}
    {bookmark : PublicationBookmark} {row : BookmarkRow} (lineage : store.Lineage)
    (answers : store.Answers request token)
    (single : ∀ first a second b, store.bookmarks.get first = some a →
      store.bookmarks.get second = some b → clock.selectedAt < a.expiresAt →
      clock.selectedAt < b.expiresAt → a.Matches b.binding b.metadata b.parentToken →
        first = second)
    (published : store.Publishes clock fresh request.binding request.vector request.parent bookmark
      after) (found : store.bookmarks.get token = some row)
    (live : clock.selectedAt < row.expiresAt) : bookmark.token = token := by
  cases answers with
  | idle named same =>
    -- The stored parent alone decides whether the boundaries have moved.
    have still := same row found
    cases published with
    | idle again loaded _ =>
      obtain ⟨_, -, -, -, rfl⟩ := loadPublicationBookmark_eq_ok loaded
      exact Option.some.inj (again.symm.trans named)
    | reuses descends => cases (descends.moved named found).symm.trans still
    | inserts descends => cases (descends.moved named found).symm.trans still
  | filed held moved =>
    have mine := held row found
    cases published with
    | idle named loaded same =>
      obtain ⟨old, stored, -, -, rfl⟩ := loadPublicationBookmark_eq_ok loaded
      cases (moved _ old named stored).symm.trans same
    | reuses _ chosen loaded =>
      obtain ⟨_, -, -, -, rfl⟩ := loadPublicationBookmark_eq_ok loaded
      obtain ⟨old, stored, theirs, alive⟩ :=
        lineage.mem_equivalentBookmarks_iff.mp (chosen ▸ List.mem_cons_self ..)
      exact single _ old _ row stored found alive live (theirs.common mine)
    | inserts _ none =>
      have member := lineage.mem_equivalentBookmarks_iff.mpr ⟨row, found, mine, live⟩
      rw [none] at member
      cases member

end Store

/-! ## Runs -/

namespace StoreState

variable {state next : StoreState codec} {event : StoreEvent}

theorem Moves.publishes (moves : state.Moves event next) :
    (next.store.bookmarks = state.store.bookmarks ∧ next.answers = state.answers) ∨
      ∃ clock fresh request bookmark, event.drawn = [fresh] ∧ state.now ≤ clock.parentAt ∧
        clock.ordered ∧ clock.insertedAt = next.now ∧
        next.answers = (request, bookmark) :: state.answers ∧
        state.store.Publishes clock fresh request.binding request.vector request.parent bookmark
          next.store := by
  cases moves with
  | none same answers => exact .inl ⟨same ▸ rfl, answers⟩
  | create answers _ done =>
    obtain ⟨rfl, swept, expired, opened⟩ := Store.createIncidentCursor_eq_ok done
    refine .inl ⟨opened.bookmarks.trans ?_, answers⟩
    rcases Store.expireSession_eq_ok expired with rfl | ⟨session, -, gone⟩
    · rfl
    · exact gone.bookmarks
  | commit answers done =>
    obtain ⟨node, session, -, -, committed⟩ := Store.commitIncidentCursorPage_eq_ok done
    exact .inl ⟨committed.bookmarks, answers⟩
  | put answers began ordered ended done =>
    exact .inr ⟨_, _, _, _, rfl, began, ordered, ended, answers,
      (Store.putPublicationBookmark_eq_ok done).2⟩

/-- What every reached state keeps about its bookmarks. -/
structure Filed (state : StoreState codec) : Prop where
  lineage : state.store.Lineage
  stored : ∀ token row, state.store.bookmarks.get token = some row → token ∈ state.issued
  parents : ∀ token row parent, state.store.bookmarks.get token = some row →
    row.parentToken = some parent → parent ∈ state.issued
  single : ∀ first a second b, state.store.bookmarks.get first = some a →
    state.store.bookmarks.get second = some b → state.now < a.expiresAt →
    state.now < b.expiresAt → a.Matches b.binding b.metadata b.parentToken → first = second
  answers : ∀ request first, (request, first) ∈ state.answers → first.token ∈ state.issued ∧
    (∀ parent, request.parent = some parent → parent ∈ state.issued) ∧
    state.store.Answers request first.token
  kept : ∀ request first, (request, first) ∈ state.answers → state.now < first.expiresAt →
    ∃ row, state.store.bookmarks.get first.token = some row ∧ row.expiresAt = first.expiresAt

theorem Filed.publishes (filed : state.Filed) {clock : Store.PutClock} {request : PutRequest}
    {bookmark : PublicationBookmark} (began : state.now ≤ clock.parentAt) (ordered : clock.ordered)
    (ended : clock.insertedAt = next.now) (issued : next.issued = [fresh] ++ state.issued)
    (unused : fresh ∉ state.issued) (answers : next.answers = (request, bookmark) :: state.answers)
    (published : state.store.Publishes clock fresh request.binding request.vector request.parent
      bookmark next.store) : next.Filed := by
  obtain ⟨first, second, third, fourth⟩ := ordered
  have selected : clock.selectedAt ≤ next.now := ended ▸ second.trans (third.trans fourth)
  have since : state.now ≤ next.now := (began.trans first).trans selected
  have wider {id : UUID} (member : id ∈ state.issued) : id ∈ next.issued :=
    issued ▸ List.mem_append_right _ member
  have unstored : state.store.bookmarks.get fresh = none := by
    cases found : state.store.bookmarks.get fresh with
    | none => rfl
    | some row => exact absurd (filed.stored fresh row found) unused
  -- A row under a token drawn earlier was there before.
  have fewer {key : UUID} {row : BookmarkRow} (member : key ∈ state.issued)
      (found : next.store.bookmarks.get key = some row) :
      state.store.bookmarks.get key = some row := by
    rcases published.get_bookmarks found with before | ⟨rfl, -⟩
    · exact before
    · exact absurd member unused
  have parentIssued {parent : UUID} (named : request.parent = some parent) :
      parent ∈ state.issued := by
    obtain ⟨old, found⟩ := (named ▸ published).parent_stored
    exact filed.stored parent old found
  constructor
  case lineage =>
    refine filed.lineage.publishes published (fun token row found named => ?_) unstored
    exact unused (filed.parents token row fresh found named)
  case stored =>
    intro token row found
    rcases published.get_bookmarks found with before | ⟨rfl, -⟩
    · exact wider (filed.stored token row before)
    · exact issued ▸ List.mem_cons_self ..
  case parents =>
    intro token row parent found named
    rcases published.get_bookmarks found with before | ⟨-, -, rfl, -⟩
    · exact wider (filed.parents token row parent before named)
    · exact wider (parentIssued named)
  case single =>
    intro first a second b foundA foundB liveA liveB same
    -- A row that was there and is live now was live when the put looked for it.
    have absent {token : UUID} {row : BookmarkRow}
        (before : state.store.bookmarks.get token = some row) (live : next.now < row.expiresAt)
        (matching : row.Matches request.binding request.vector request.parent)
        (none : state.store.equivalentBookmarks clock.selectedAt request.binding
          (⟨request.vector.filters⟩, ⟨request.vector.owners.map (·.bookmark)⟩)
          request.parent = []) : False := by
      have member := filed.lineage.mem_equivalentBookmarks_iff.mpr
        ⟨row, before, matching, selected.trans_lt live⟩
      rw [none] at member
      cases member
    rcases published.get_bookmarks foundA with beforeA | ⟨rfl, -, rfl, -, none⟩ <;>
      rcases published.get_bookmarks foundB with beforeB | ⟨rfl, -, rfl, -, none'⟩
    · exact filed.single first a second b beforeA beforeB (since.trans_lt liveA)
        (since.trans_lt liveB) same
    · exact (absent beforeA liveA same none').elim
    · exact (absent beforeB liveB same.symm none).elim
    · rfl
  case answers =>
    intro other answer member
    rw [answers] at member
    rcases List.mem_cons.mp member with same | before
    · cases same
      refine ⟨?_, fun parent named => wider (parentIssued named),
        published.answers filed.lineage unstored⟩
      rcases published.token_stored with new | ⟨old, found⟩
      · exact issued ▸ new ▸ List.mem_cons_self ..
      · exact wider (filed.stored _ old found)
    · obtain ⟨drawn, named, kept⟩ := filed.answers other answer before
      refine ⟨wider drawn, fun parent also => wider (named parent also), kept.mono ?_⟩
      rintro key row (rfl | also) found
      · exact fewer drawn found
      · exact fewer (named key also) found
  case kept =>
    intro other answer member live
    rw [answers] at member
    rcases List.mem_cons.mp member with same | before
    · cases same
      exact published.answered
    · obtain ⟨row, found, expiry⟩ := filed.kept other answer before (since.trans_lt live)
      exact ⟨row, published.get_live fourth found (ended ▸ expiry ▸ live), expiry⟩

theorem Filed.step (filed : state.Filed) (stepped : state.step event = some next) :
    next.Filed := by
  obtain ⟨moves, since, issued, fresh⟩ := step_moves stepped
  rcases moves.publishes with ⟨same, answers⟩ | ⟨clock, id, request, bookmark, drawn, began,
    ordered, ended, answers, published⟩
  · have wider {id : UUID} (member : id ∈ state.issued) : id ∈ next.issued :=
      issued ▸ List.mem_append_right _ member
    refine ⟨?_, ?_, ?_, ?_, ?_, ?_⟩
    · exact ⟨same ▸ filed.lineage.hashed, same ▸ filed.lineage.root, same ▸ filed.lineage.child⟩
    · exact fun token row found => wider (filed.stored token row (same ▸ found))
    · exact fun token row parent found named =>
        wider (filed.parents token row parent (same ▸ found) named)
    · intro first a second b foundA foundB liveA liveB
      exact filed.single first a second b (same ▸ foundA) (same ▸ foundB) (since.trans_lt liveA)
        (since.trans_lt liveB)
    · intro request first member
      obtain ⟨drawn, named, kept⟩ := filed.answers request first (answers ▸ member)
      exact ⟨wider drawn, fun parent also => wider (named parent also),
        kept.mono fun _ _ _ found => same ▸ found⟩
    · intro request first member live
      exact same ▸ filed.kept request first (answers ▸ member) (since.trans_lt live)
  · rw [drawn] at issued fresh
    exact filed.publishes began ordered ended issued (fresh id (List.mem_singleton.mpr rfl)) answers
      published

theorem filed_of_reachable {guard : StoreState codec → StoreEvent → Prop}
    (reached : (storeSystem codec).Reachable guard state) : state.Filed := by
  refine reached.induction ?_ fun _ _ _ _ filed _ stepped => filed.step stepped
  rintro _ ⟨now, rfl⟩
  refine ⟨⟨?_, ?_, ?_⟩, ?_, ?_, ?_, ?_, ?_⟩
  · intro _ _ found
    cases found
  · intro _ _ found
    cases found
  · intro _ _ _ _ found
    cases found
  · intro _ _ found
    cases found
  · intro _ _ _ found
    cases found
  · intro _ _ _ _ found
    cases found
  · intro _ _ member
    cases member
  · intro _ _ member
    cases member

end StoreState

theorem Store.putPublicationBookmark_of_same {parent : UUID} {old : PublicationBookmark}
    (bound : validCursorBinding binding = true) (named : parent ≠ 0)
    (loaded : store.loadPublicationBookmark clock.parentAt parent binding = .ok old)
    (same : samePublicationBoundaries codec old.vector vector = true) (victim : Option UUID)
    (fresh : UUID) :
    store.putPublicationBookmark true clock victim fresh binding vector (some parent) =
      .ok (old, store) := by
  have lineage := (samePublicationBoundaries_eq_true.mp same).1
  have canonical : canonicalPublicationVector codec vector = .ok vector := by
    unfold publicationVectorLineage at lineage
    split at lineage
    next _ _ _ current => exact (canonicalPublicationVector_eq_ok current).1 ▸ current
    next => cases lineage
  have hashed : publicationHashes codec vector =
      .ok (⟨vector.filters⟩, ⟨vector.owners.map (·.bookmark)⟩) := by
    rw [publicationHashes, canonical]
    rfl
  have tested : store.publicationParent clock.parentAt binding vector (some parent) =
      .ok (some old) := by
    simp only [publicationParent, bind_eq_ok, ensure_eq_ok, pure_eq_ok]
    exact ⟨old, loaded, (), lineage, if_pos same⟩
  simp only [putPublicationBookmark, bind_eq_ok, ensure_eq_ok]
  exact ⟨(), ⟨bound, fun zero => named (Option.some.inj zero)⟩, vector, canonical, _, hashed, (),
    trivial, some old, tested, rfl⟩

/-- In every reached state a root bookmark names no owner parents, a bookmark whose
parent is stored continues it, and live bookmarks are determined by their contents.
A put repeated while its first answer is live answers the same token, and a put
with the boundaries of its parent answers the parent and writes nothing. -/
theorem bookmarks_lineage_idempotent {state : StoreState codec}
    (reached : (storeSystem codec).Reachable System.always state) :
    (∀ token row, state.store.bookmarks.get token = some row → row.parentToken = none →
      ∀ position ∈ row.metadata.owners, position.parentBookmark = "") ∧
    (∀ token row parent old, state.store.bookmarks.get token = some row →
      row.parentToken = some parent → state.store.bookmarks.get parent = some old →
        row.binding = old.binding ∧ old.metadata.Continues row.metadata) ∧
    (∀ first a second b, state.store.bookmarks.get first = some a →
      state.store.bookmarks.get second = some b → state.now < a.expiresAt →
      state.now < b.expiresAt → a.Matches b.binding b.metadata b.parentToken → first = second) ∧
    (∀ request first, (request, first) ∈ state.answers → ∀ locked clock victim fresh again after,
      state.now ≤ clock.parentAt → clock.ordered → clock.selectedAt < first.expiresAt →
      state.store.putPublicationBookmark locked clock victim fresh request.binding request.vector
        request.parent = .ok (again, after) → again.token = first.token) ∧
    (∀ binding vector parent old locked clock victim fresh answer after,
      state.store.bookmarks.get parent = some old →
      vector.owners.map (·.bookmark) = old.metadata.owners.map (·.bookmark) →
      state.store.putPublicationBookmark locked clock victim fresh binding vector (some parent) =
        .ok (answer, after) → answer.token = parent ∧ after = state.store) ∧
    ∀ binding vector parent old clock victim fresh, validCursorBinding binding = true →
      parent ≠ 0 →
      state.store.loadPublicationBookmark clock.parentAt parent binding = .ok old →
      samePublicationBoundaries codec old.vector vector = true →
      state.store.putPublicationBookmark true clock victim fresh binding vector (some parent) =
        .ok (old, state.store) := by
  have filed := StoreState.filed_of_reachable reached
  refine ⟨filed.lineage.root, filed.lineage.child, filed.single, ?_, ?_, ?_⟩
  · intro request first member locked clock victim fresh again after began ordered live done
    have selected : state.now ≤ clock.selectedAt := began.trans ordered.1
    obtain ⟨row, found, expiry⟩ := filed.kept request first member (selected.trans_lt live)
    refine (filed.answers request first member).2.2.token_eq filed.lineage ?_
      (Store.putPublicationBookmark_eq_ok done).2 found (expiry ▸ live)
    intro one a other b foundA foundB liveA liveB
    exact filed.single one a other b foundA foundB (selected.trans_lt liveA)
      (selected.trans_lt liveB)
  · intro binding vector parent old locked clock victim fresh answer after found same done
    have published := (Store.putPublicationBookmark_eq_ok done).2
    -- The put passed the lineage test, so equal bookmarks mean equal boundaries.
    have unmoved (descends : state.store.Descends clock.parentAt binding vector (some parent)) :
        False := by
      obtain ⟨held, stored, -, -, continues⟩ := descends.of_parent
      obtain rfl := Option.some.inj (stored.symm.trans found)
      exact continues.moved same
    cases published with
    | idle named loaded _ =>
      obtain ⟨_, -, -, -, rfl⟩ := Store.loadPublicationBookmark_eq_ok loaded
      exact ⟨(Option.some.inj named).symm, rfl⟩
    | reuses descends => exact (unmoved descends).elim
    | inserts descends => exact (unmoved descends).elim
  · intro binding vector parent old clock victim fresh bound named loaded same
    exact Store.putPublicationBookmark_of_same bound named loaded same victim fresh

/-- A vector whose owners ended where their bookmarks say. -/
def sampleVector (parent bookmark : String) : PublicationVector :=
  ⟨publicationVectorProfile, ∅, [⟨.gateway, bookmark, parent, sampleToken 1, sampleDigest⟩,
    ⟨.ingestion, sampleToken 2, if parent = "" then "" else sampleToken 2, sampleToken 1,
      sampleDigest⟩]⟩

def sampleClock (now : Time) : Store.PutClock := ⟨now, now, now, now, now⟩

/-- A bookmark, its continuation, the same continuation again and a resume that found nothing. -/
def resumedBookmarks : List StoreEvent :=
  let later := sampleVector (sampleToken 1) (sampleToken 3)
  [.put true (sampleClock 0) none 1 ⟨sampleBinding, sampleVector "" (sampleToken 1), none⟩,
    .put true (sampleClock 1) none 2 ⟨sampleBinding, later, some 1⟩,
    .put true (sampleClock 2) none 3 ⟨sampleBinding, later, some 1⟩,
    .put true (sampleClock 3) none 4
      ⟨sampleBinding, sampleVector (sampleToken 1) (sampleToken 1), some 1⟩]

theorem bookmarks_lineage_idempotent_resumed :
    ∃ state, replayStore resumedBookmarks = some state ∧
      state.answers.map (·.2.token) = [1, 2, 2, 1] ∧
      ∀ request first, (request, first) ∈ state.answers →
        ∀ locked clock victim fresh again after, state.now ≤ clock.parentAt → clock.ordered →
        clock.selectedAt < first.expiresAt →
        state.store.putPublicationBookmark locked clock victim fresh request.binding
          request.vector request.parent = .ok (again, after) → again.token = first.token := by
  obtain ⟨state, replayed, reached, checked⟩ := replayStore_reachable resumedBookmarks
    (fun state => decide (state.answers.map (·.2.token) = [1, 2, 2, 1])) (by decide +kernel)
  exact ⟨state, replayed, of_decide_eq_true checked,
    (bookmarks_lineage_idempotent reached).2.2.2.1⟩

end OufMcp.Cursor
