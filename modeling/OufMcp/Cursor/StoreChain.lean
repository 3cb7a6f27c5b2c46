import OufMcp.Cursor.StoreRun

/-!
# Cursor sessions are chains

The nodes of a session are numbered without gaps, each committed node but the
last points to the next one, and the frames along the chain only move forward.
What is committed is never altered, and no table grows beyond its limits.
-/

namespace OufMcp.Cursor

open Ledger (UUID Time)
open Relational Transition

/-! ## Frames along a chain -/

/-- How an owner position moves from one page to the next. -/
structure OwnerPosition.Advances (previous current : OwnerPosition) : Prop where
  snapshotRef : current.snapshotRef = previous.snapshotRef
  done : previous.done = true → current.done = true
  forward : previous.pageIndex ≤ current.pageIndex
  oneStep : current.pageIndex ≤ previous.pageIndex + 1
  within : current.pageIndex = previous.pageIndex →
    current.cursor = previous.cursor ∧ current.itemsDigest = previous.itemsDigest ∧
      current.ownerDigest = previous.ownerDigest ∧ previous.offset ≤ current.offset

/-- What two frames of one session share, and the flags that are only ever raised. -/
structure CursorFrame.Keeps (old next : CursorFrame) : Prop where
  filters : next.filters = old.filters
  pageLimit : next.pageLimit = old.pageLimit
  selfStatus : next.selfStatus = old.selfStatus
  selfActionRequired : next.selfActionRequired = old.selfActionRequired
  publicationCoverage : next.publicationCoverage = old.publicationCoverage
  publicationParent : next.publicationParent = old.publicationParent
  publicationBase : next.publicationBase = old.publicationBase
  selfConsumed : old.selfConsumed = true → next.selfConsumed = true
  partialResult : old.partialResult = true → next.partialResult = true
  names : ∀ previous ∈ old.owners, ∃ current ∈ next.owners, current.name = previous.name
  owners : ∀ previous ∈ old.owners, ∀ current ∈ next.owners, current.name = previous.name →
    current.snapshotRef = previous.snapshotRef ∧
      (previous.done = true → current.done = true) ∧ previous.pageIndex ≤ current.pageIndex

/-- Two consecutive frames of a session. -/
structure CursorFrame.Follows (old next : CursorFrame) : Prop extends old.Keeps next where
  advances : ∀ previous ∈ old.owners, ∀ current ∈ next.owners, current.name = previous.name →
    previous.Advances current

theorem OwnerPosition.continues_eq_true {previous current : OwnerPosition}
    (accepted : previous.continues current = true) : previous.Advances current := by
  simp only [continues, Bool.and_eq_true, Bool.or_eq_true, Bool.not_eq_true',
    decide_eq_true_eq] at accepted
  obtain ⟨⟨⟨⟨snapshotRef, done⟩, -⟩, forward, oneStep⟩, within⟩ := accepted
  refine ⟨snapshotRef, ?_, forward, oneStep, ?_⟩
  · intro finished
    rcases done with unfinished | done
    · rw [finished] at unfinished
      cases unfinished
    · exact done
  · intro same
    rcases within with moved | within
    · exact absurd same moved
    · exact within

theorem validateCursorFrame_names {codec : Codec} {frame : CursorFrame}
    (valid : validateCursorFrame codec frame = .ok ()) :
    (frame.owners.map (·.name)).Nodup := by
  simp only [validateCursorFrame, bind_eq_ok, ensure_eq_ok] at valid
  obtain ⟨_, -, _, -, _, -, _, ⟨names, -⟩, -⟩ := valid
  exact names

theorem eq_of_name {owners : List OwnerPosition} (names : (owners.map (·.name)).Nodup)
    {first second : OwnerPosition} (one : first ∈ owners) (other : second ∈ owners)
    (same : first.name = second.name) : first = second :=
  List.inj_on_of_nodup_map names one other same

theorem sameCursorScope_follows {old next : CursorFrame}
    (names : (next.owners.map (·.name)).Nodup) (accepted : sameCursorScope old next = true) :
    old.Follows next := by
  simp only [sameCursorScope, Bool.and_eq_true, Bool.or_eq_true, Bool.not_eq_true',
    decide_eq_true_eq, List.all_eq_true] at accepted
  obtain ⟨⟨⟨⟨coverage, parent, base, filters, -, limit, status, action⟩, partialResult⟩,
    selfConsumed⟩, owners⟩ := accepted
  have raised {a b : Bool} (either : a = false ∨ b = true) (set : a = true) : b = true := by
    rcases either with unset | raised
    · rw [set] at unset
      cases unset
    · exact raised
  have matched : ∀ previous ∈ old.owners, ∃ current ∈ next.owners,
      current.name = previous.name ∧ previous.Advances current := by
    intro previous member
    have accepted := owners previous member
    cases found : (next.owners.filter fun current =>
        decide (current.name = previous.name)).getLast? with
    | none =>
      rw [found] at accepted
      cases accepted
    | some current =>
      rw [found] at accepted
      have selected := List.mem_filter.mp (List.mem_of_getLast? found)
      exact ⟨current, selected.1, of_decide_eq_true selected.2,
        OwnerPosition.continues_eq_true accepted⟩
  have advances : ∀ previous ∈ old.owners, ∀ current ∈ next.owners,
      current.name = previous.name → previous.Advances current := by
    intro previous member current also named
    obtain ⟨found, foundMember, foundName, advance⟩ := matched previous member
    rwa [eq_of_name names also foundMember (named.trans foundName.symm)]
  refine { filters := filters.symm, pageLimit := limit.symm, selfStatus := status.symm,
           selfActionRequired := action.symm, publicationCoverage := coverage.symm,
           publicationParent := parent.symm, publicationBase := base.symm,
           selfConsumed := raised selfConsumed, partialResult := raised partialResult,
           names := ?_, owners := ?_, advances := advances }
  · intro previous member
    obtain ⟨current, found, named, -⟩ := matched previous member
    exact ⟨current, found, named⟩
  · intro previous member current also named
    have advance := advances previous member current also named
    exact ⟨advance.snapshotRef, advance.done, advance.forward⟩

theorem CursorFrame.Keeps.refl {frame : CursorFrame} (names : (frame.owners.map (·.name)).Nodup) :
    frame.Keeps frame := by
  refine ⟨rfl, rfl, rfl, rfl, rfl, rfl, rfl, id, id, fun previous member =>
    ⟨previous, member, rfl⟩, ?_⟩
  intro previous member current also named
  obtain rfl := eq_of_name names also member named
  exact ⟨rfl, id, le_rfl⟩

theorem CursorFrame.Keeps.trans {first second third : CursorFrame} (before : first.Keeps second)
    (after : second.Keeps third) : first.Keeps third := by
  refine ⟨after.filters.trans before.filters, after.pageLimit.trans before.pageLimit,
    after.selfStatus.trans before.selfStatus,
    after.selfActionRequired.trans before.selfActionRequired,
    after.publicationCoverage.trans before.publicationCoverage,
    after.publicationParent.trans before.publicationParent,
    after.publicationBase.trans before.publicationBase,
    fun set => after.selfConsumed (before.selfConsumed set),
    fun set => after.partialResult (before.partialResult set), ?_, ?_⟩
  · intro previous member
    obtain ⟨middle, found, named⟩ := before.names previous member
    obtain ⟨current, also, again⟩ := after.names middle found
    exact ⟨current, also, again.trans named⟩
  · intro previous member current also named
    obtain ⟨middle, found, between⟩ := before.names previous member
    have one := before.owners previous member middle found between
    have two := after.owners middle found current also (named.trans between.symm)
    exact ⟨two.1.trans one.1, fun set => two.2.1 (one.2.1 set), one.2.2.trans two.2.2⟩

/-! ## The nodes of a session -/

variable {codec : Codec} {store after : Store codec}

/-- Links between nodes are what commits made them. -/
structure Store.Chained (store : Store codec) : Prop where
  valid : ∀ token row, store.nodes.get token = some row →
    validateCursorFrame codec row.metadata = .ok ()
  owned : ∀ token row, store.nodes.get token = some row →
    ∃ held, store.sessions.get row.session = some held
  rooted : ∀ session held, store.sessions.get session = some held →
    ∃ token row, store.nodes.get token = some row ∧ row.session = session ∧ row.pageNumber = 0
  linked : ∀ token row next, store.nodes.get token = some row → row.nextToken = some next →
    row.pageDigest.isSome = true ∧ ∃ following, store.nodes.get next = some following ∧
      following.session = row.session ∧ following.pageNumber = row.pageNumber + 1 ∧
      row.metadata.Follows following.metadata
  preceded : ∀ next following, store.nodes.get next = some following →
    following.pageNumber ≠ 0 → ∃ token row, store.nodes.get token = some row ∧
      row.nextToken = some next

namespace Store

theorem Chained.empty : (Store.empty codec).Chained where
  valid _ _ found := by cases found
  owned _ _ found := by cases found
  rooted _ _ found := by cases found
  linked _ _ _ found := by cases found
  preceded _ _ found := by cases found

theorem Chained.nextToken_of_pending (chained : store.Chained) {token : UUID}
    {row : CursorNodeRow} (found : store.nodes.get token = some row)
    (pending : row.pageDigest = none) : row.nextToken = none := by
  cases link : row.nextToken with
  | none => rfl
  | some next =>
    have committed := (chained.linked token row next found link).1
    rw [pending] at committed
    cases committed

theorem Expires.get_nodes {session : UUID} {now : Time} (gone : store.Expires session now after)
    {token : UUID} {row : CursorNodeRow} :
    after.nodes.get token = some row ↔
      store.nodes.get token = some row ∧ row.session ≠ session := by
  rw [gone.nodes, Table.get_retain, Option.filter_eq_some_iff, decide_eq_true_eq]

theorem Expires.get_sessions {session : UUID} {now : Time}
    (gone : store.Expires session now after) {key : UUID} {held : CursorSession} :
    after.sessions.get key = some held ↔ store.sessions.get key = some held ∧ key ≠ session := by
  rw [gone.sessions, Table.get_retain, Option.filter_eq_some_iff, decide_eq_true_eq]

theorem Chained.expires (chained : store.Chained) {session : UUID} {now : Time}
    (gone : store.Expires session now after) : after.Chained where
  valid token row found := chained.valid token row (gone.get_nodes.mp found).1
  owned token row found := by
    obtain ⟨before, other⟩ := gone.get_nodes.mp found
    obtain ⟨held, present⟩ := chained.owned token row before
    exact ⟨held, gone.get_sessions.mpr ⟨present, other⟩⟩
  rooted key held found := by
    obtain ⟨before, other⟩ := gone.get_sessions.mp found
    obtain ⟨token, row, present, same, first⟩ := chained.rooted key held before
    exact ⟨token, row, gone.get_nodes.mpr ⟨present, same ▸ other⟩, same, first⟩
  linked token row next found link := by
    obtain ⟨before, other⟩ := gone.get_nodes.mp found
    obtain ⟨committed, following, present, same, rest⟩ :=
      chained.linked token row next before link
    exact ⟨committed, following, gone.get_nodes.mpr ⟨present, same ▸ other⟩, same, rest⟩
  preceded next following found later := by
    obtain ⟨before, other⟩ := gone.get_nodes.mp found
    obtain ⟨token, row, present, link⟩ := chained.preceded next following before later
    obtain ⟨-, also, same, session, -⟩ := chained.linked token row next present link
    obtain rfl := Option.some.inj (before.symm.trans same)
    exact ⟨token, row, gone.get_nodes.mpr ⟨present, session ▸ other⟩, link⟩

theorem Chained.opens (chained : store.Chained) {node : CursorNode} {binding : CursorBinding}
    (opened : store.Opens node binding after) : after.Chained := by
  -- A node that was there keeps its token, because the token of the new one is free.
  have kept {token : UUID} {row : CursorNodeRow} (found : store.nodes.get token = some row) :
      after.nodes.get token = some row := by
    rw [opened.nodes.get_of_ne, found]
    rintro rfl
    cases opened.newNode.symm.trans found
  have split {token : UUID} {row : CursorNodeRow} (found : after.nodes.get token = some row) :
      row = ⟨node.session, 0, node.frame, none, none⟩ ∨ store.nodes.get token = some row := by
    rw [opened.nodes.get] at found
    split at found
    · exact .inl (Option.some.inj found).symm
    · exact .inr found
  constructor
  case valid =>
    intro token row found
    rcases split found with rfl | before
    · exact opened.valid
    · exact chained.valid token row before
  case owned =>
    intro token row found
    rcases split found with rfl | before
    · exact ⟨_, opened.sessions.get_self⟩
    · obtain ⟨held, present⟩ := chained.owned token row before
      refine ⟨held, ?_⟩
      rw [opened.sessions.get_of_ne, present]
      rintro same
      cases opened.newSession.symm.trans (same ▸ present)
  case rooted =>
    intro session held found
    rw [opened.sessions.get] at found
    split at found
    next same => exact ⟨node.token, _, opened.nodes.get_self, same.symm, rfl⟩
    next =>
      obtain ⟨token, row, present, rest⟩ := chained.rooted session held found
      exact ⟨token, row, kept present, rest⟩
  case linked =>
    intro token row next found link
    rcases split found with rfl | before
    · cases link
    · obtain ⟨committed, following, present, rest⟩ := chained.linked token row next before link
      exact ⟨committed, following, kept present, rest⟩
  case preceded =>
    intro next following found later
    rcases split found with rfl | before
    · exact absurd rfl later
    · obtain ⟨token, row, present, link⟩ := chained.preceded next following before later
      exact ⟨token, row, kept present, link⟩

theorem get_extended {token candidate : UUID} {node new : CursorNodeRow} {digest : PageDigest}
    {inserted nodes : Table UUID (operationalCursorNode codec)}
    (insert : store.nodes.Puts candidate new inserted)
    (put : inserted.Puts token
      { node with pageDigest := some digest, nextToken := some candidate } nodes)
    {key : UUID} {row : CursorNodeRow} (found : nodes.get key = some row) :
    (key = token ∧ row = { node with pageDigest := some digest, nextToken := some candidate }) ∨
      (key ≠ token ∧ key = candidate ∧ row = new) ∨
      (key ≠ token ∧ key ≠ candidate ∧ store.nodes.get key = some row) := by
  rw [put.get] at found
  split at found
  next same => exact .inl ⟨same, (Option.some.inj found).symm⟩
  next differ =>
    rw [insert.get] at found
    split at found
    next same => exact .inr (.inl ⟨differ, same, (Option.some.inj found).symm⟩)
    next other => exact .inr (.inr ⟨differ, other, found⟩)

theorem Chained.closes (chained : store.Chained) {token : UUID} {node : CursorNodeRow}
    {digest : PageDigest} {nodes : Table UUID (operationalCursorNode codec)}
    (found : store.nodes.get token = some node)
    (put : store.nodes.Puts token { node with pageDigest := some digest } nodes) :
    Chained { store with nodes } := by
  -- Every node has its counterpart, with the same frame, number, session and link.
  have back {key : UUID} {row : CursorNodeRow} (present : nodes.get key = some row) :
      ∃ old, store.nodes.get key = some old ∧ row.session = old.session ∧
        row.pageNumber = old.pageNumber ∧ row.metadata = old.metadata ∧
        row.nextToken = old.nextToken ∧
        (old.pageDigest.isSome = true → row.pageDigest.isSome = true) := by
    rw [put.get] at present
    split at present
    next same =>
      cases present
      exact ⟨node, same ▸ found, rfl, rfl, rfl, rfl, fun _ => rfl⟩
    next => exact ⟨row, present, rfl, rfl, rfl, rfl, id⟩
  have forth {key : UUID} {old : CursorNodeRow} (present : store.nodes.get key = some old) :
      ∃ row, nodes.get key = some row ∧ row.session = old.session ∧
        row.pageNumber = old.pageNumber ∧ row.metadata = old.metadata ∧
        row.nextToken = old.nextToken := by
    by_cases same : key = token
    · subst same
      obtain rfl := Option.some.inj (found.symm.trans present)
      exact ⟨_, put.get_self, rfl, rfl, rfl, rfl⟩
    · exact ⟨old, (put.get_of_ne same).trans present, rfl, rfl, rfl, rfl⟩
  constructor
  case valid =>
    intro key row present
    obtain ⟨old, before, -, -, frame, -⟩ := back present
    rw [frame]
    exact chained.valid key old before
  case owned =>
    intro key row present
    obtain ⟨old, before, session, -⟩ := back present
    rw [session]
    exact chained.owned key old before
  case rooted =>
    intro session held present
    obtain ⟨key, old, before, same, first⟩ := chained.rooted session held present
    obtain ⟨row, now, session, number, -⟩ := forth before
    exact ⟨key, row, now, session.trans same, number.trans first⟩
  case linked =>
    intro key row next present link
    obtain ⟨old, before, session, number, frame, token, digest⟩ := back present
    obtain ⟨committed, following, target, sameSession, nextNumber, follows⟩ :=
      chained.linked key old next before (token ▸ link)
    obtain ⟨now, targetNow, targetSession, targetNumber, targetFrame, -⟩ := forth target
    refine ⟨digest committed, now, targetNow, ?_, ?_, ?_⟩
    · rw [targetSession, sameSession, session]
    · rw [targetNumber, nextNumber, number]
    · rw [targetFrame, frame]
      exact follows
  case preceded =>
    intro next following present later
    obtain ⟨old, before, -, number, -⟩ := back present
    obtain ⟨key, row, source, link⟩ := chained.preceded next old before (number ▸ later)
    obtain ⟨now, sourceNow, -, -, -, sameLink⟩ := forth source
    exact ⟨key, now, sourceNow, sameLink.trans link⟩

theorem Chained.continued (chained : store.Chained) {token candidate : UUID} {node : CursorNodeRow}
    {digest : PageDigest} {frame : CursorFrame}
    {inserted nodes : Table UUID (operationalCursorNode codec)}
    (found : store.nodes.get token = some node) (pending : node.pageDigest = none)
    (valid : validateCursorFrame codec frame = .ok ())
    (number : frame.pageNumber = node.pageNumber + 1)
    (scope : sameCursorScope node.metadata frame = true)
    (newNode : store.nodes.get candidate = none)
    (insert : store.nodes.Puts candidate
      ⟨node.session, frame.pageNumber, frame, none, none⟩ inserted)
    (put : inserted.Puts token
      { node with pageDigest := some digest, nextToken := some candidate } nodes) :
    Chained { store with nodes } := by
  have apart : candidate ≠ token := by
    rintro rfl
    cases newNode.symm.trans found
  have atCandidate : nodes.get candidate =
      some ⟨node.session, frame.pageNumber, frame, none, none⟩ := by
    rw [put.get_of_ne apart, insert.get_self]
  have elsewhere {key : UUID} {row : CursorNodeRow} (present : store.nodes.get key = some row)
      (differ : key ≠ token) : nodes.get key = some row := by
    rw [put.get_of_ne differ, insert.get_of_ne, present]
    rintro rfl
    cases newNode.symm.trans present
  -- The target of an old link is found with its session, number and frame as before.
  have forth {key : UUID} {old : CursorNodeRow} (present : store.nodes.get key = some old) :
      ∃ row, nodes.get key = some row ∧ row.session = old.session ∧
        row.pageNumber = old.pageNumber ∧ row.metadata = old.metadata := by
    by_cases same : key = token
    · subst same
      obtain rfl := Option.some.inj (found.symm.trans present)
      exact ⟨_, put.get_self, rfl, rfl, rfl⟩
    · exact ⟨old, elsewhere present same, rfl, rfl, rfl⟩
  constructor
  case valid =>
    intro key row present
    rcases get_extended insert put present with ⟨-, rfl⟩ | ⟨-, -, rfl⟩ | ⟨-, -, before⟩
    · exact chained.valid token node found
    · exact valid
    · exact chained.valid key row before
  case owned =>
    intro key row present
    rcases get_extended insert put present with ⟨-, rfl⟩ | ⟨-, -, rfl⟩ | ⟨-, -, before⟩
    · exact chained.owned token node found
    · exact chained.owned token node found
    · exact chained.owned key row before
  case rooted =>
    intro session held present
    obtain ⟨key, old, before, same, first⟩ := chained.rooted session held present
    obtain ⟨row, now, session, number, -⟩ := forth before
    exact ⟨key, row, now, session.trans same, number.trans first⟩
  case linked =>
    intro key row next present link
    rcases get_extended insert put present with ⟨-, rfl⟩ | ⟨-, -, rfl⟩ | ⟨-, -, before⟩
    · cases link
      exact ⟨rfl, _, atCandidate, rfl, number,
        sameCursorScope_follows (validateCursorFrame_names valid) scope⟩
    · cases link
    · obtain ⟨committed, following, target, sameSession, nextNumber, follows⟩ :=
        chained.linked key row next before link
      obtain ⟨now, targetNow, targetSession, targetNumber, targetFrame⟩ := forth target
      refine ⟨committed, now, targetNow, targetSession.trans sameSession,
        targetNumber.trans nextNumber, ?_⟩
      rw [targetFrame]
      exact follows
  case preceded =>
    intro next following present later
    -- The node that was written had no link before, so it preceded nothing.
    have source {key : UUID} {row : CursorNodeRow} (before : store.nodes.get key = some row)
        (link : row.nextToken = some next) : nodes.get key = some row := by
      refine elsewhere before ?_
      rintro rfl
      obtain rfl := Option.some.inj (found.symm.trans before)
      cases (chained.nextToken_of_pending found pending).symm.trans link
    rcases get_extended insert put present with ⟨rfl, rfl⟩ | ⟨-, rfl, -⟩ | ⟨-, -, before⟩
    · obtain ⟨key, row, before, link⟩ := chained.preceded next node found later
      exact ⟨key, row, source before link, link⟩
    · exact ⟨token, _, put.get_self, rfl⟩
    · obtain ⟨key, row, before, link⟩ := chained.preceded next following before later
      exact ⟨key, row, source before link, link⟩

theorem Chained.commits (chained : store.Chained) {token candidate : UUID}
    {binding : CursorBinding} {digest : PageDigest} {node : CursorNodeRow}
    {next : Option CursorFrame} {result : Option UUID}
    (found : store.nodes.get token = some node)
    (committed : store.Commits token candidate binding digest node next result after) :
    after.Chained := by
  cases committed with
  | same => exact chained
  | again => exact chained
  | closes _ put => exact chained.closes found put
  | continued pending valid number scope _ newNode insert put =>
    exact chained.continued found pending valid number scope newNode insert put

/-! ## From links to chains -/

/-- The nodes of one session, numbered up to `last`. -/
structure ChainOf (store : Store codec) (session : UUID) (last : Nat) : Prop where
  numbers : ∀ number, (∃ token row, store.nodes.get token = some row ∧ row.session = session ∧
    row.pageNumber = number) ↔ number ≤ last
  once : ∀ first a second b, store.nodes.get first = some a → store.nodes.get second = some b →
    a.session = session → b.session = session → a.pageNumber = b.pageNumber → first = second
  linked : ∀ token row, store.nodes.get token = some row → row.session = session →
    row.pageNumber < last → row.pageDigest.isSome = true ∧ ∃ next following,
      row.nextToken = some next ∧ store.nodes.get next = some following ∧
      following.session = session ∧ following.pageNumber = row.pageNumber + 1 ∧
      row.metadata.Follows following.metadata
  tip : ∀ token row, store.nodes.get token = some row → row.session = session →
    row.pageNumber = last → row.nextToken = none
  kept : ∀ first a second b, store.nodes.get first = some a → store.nodes.get second = some b →
    a.session = session → b.session = session → a.pageNumber ≤ b.pageNumber →
    a.metadata.Keeps b.metadata

theorem eq_of_number {first second : UUID} {a b : CursorNodeRow}
    (one : store.nodes.get first = some a) (other : store.nodes.get second = some b)
    (session : a.session = b.session) (number : a.pageNumber = b.pageNumber) :
    first = second := by
  refine store.nodes.unique first a second b one other ?_
  simp [operationalCursorNode, session, number]

theorem pageNumber_le {token : UUID} {row : CursorNodeRow}
    (found : store.nodes.get token = some row) : row.pageNumber ≤ 200 := by
  have checked := Table.check_of_get found
  simp only [operationalCursorNode, Bool.and_eq_true, decide_eq_true_eq] at checked
  exact checked.1.1

/-- Whether a session has a node of this number. -/
def Numbered (store : Store codec) (session : UUID) (number : Nat) : Prop :=
  ∃ token row, store.nodes.get token = some row ∧ row.session = session ∧
    row.pageNumber = number

theorem Chained.predecessor (chained : store.Chained) {next : UUID} {following : CursorNodeRow}
    (found : store.nodes.get next = some following) {number : Nat}
    (later : following.pageNumber = number + 1) :
    ∃ token row, store.nodes.get token = some row ∧ row.session = following.session ∧
      row.pageNumber = number ∧ row.pageDigest.isSome = true ∧ row.nextToken = some next ∧
      row.metadata.Follows following.metadata := by
  obtain ⟨token, row, present, link⟩ := chained.preceded next following found (by omega)
  obtain ⟨committed, target, same, session, successor, follows⟩ :=
    chained.linked token row next present link
  obtain rfl := Option.some.inj (found.symm.trans same)
  exact ⟨token, row, present, session.symm, by omega, committed, link, follows⟩

theorem Chained.numbered_of_le (chained : store.Chained) {session : UUID} {number : Nat}
    (numbered : store.Numbered session number) {lower : Nat} (le : lower ≤ number) :
    store.Numbered session lower := by
  induction number with
  | zero => exact (Nat.le_zero.mp le) ▸ numbered
  | succ number ih =>
    by_cases top : lower = number + 1
    · exact top ▸ numbered
    · obtain ⟨next, following, found, same, later⟩ := numbered
      obtain ⟨token, row, present, session, before, -⟩ := chained.predecessor found later
      exact ih ⟨token, row, present, session.trans same, before⟩ (by omega)

theorem Chained.keeps (chained : store.Chained) {first : UUID} {a : CursorNodeRow}
    (one : store.nodes.get first = some a) (distance : Nat) :
    ∀ second b, store.nodes.get second = some b → a.session = b.session →
      b.pageNumber = a.pageNumber + distance → a.metadata.Keeps b.metadata := by
  induction distance with
  | zero =>
    intro second b other session number
    obtain rfl := eq_of_number one other session number.symm
    obtain rfl := Option.some.inj (one.symm.trans other)
    exact .refl (validateCursorFrame_names (chained.valid first a one))
  | succ distance ih =>
    intro second b other session number
    obtain ⟨token, row, present, same, before, -, -, follows⟩ :=
      chained.predecessor other (show b.pageNumber = a.pageNumber + distance + 1 from number)
    exact (ih token row present (session.trans same.symm) before).trans follows.toKeeps

theorem Chained.chainOf (chained : store.Chained) {session : UUID} {held : CursorSession}
    (present : store.sessions.get session = some held) : ∃ last, store.ChainOf session last := by
  classical
  -- Page numbers are bounded, so a session has a last one.
  have first : store.Numbered session 0 := chained.rooted session held present
  let last := Nat.findGreatest (store.Numbered session) 200
  have top : store.Numbered session last := Nat.findGreatest_spec (Nat.zero_le 200) first
  have least {number : Nat} (numbered : store.Numbered session number) : number ≤ last := by
    obtain ⟨token, row, found, same, rfl⟩ := numbered
    exact Nat.le_findGreatest (pageNumber_le found) ⟨token, row, found, same, rfl⟩
  refine ⟨last, ⟨fun number => ⟨least, chained.numbered_of_le top⟩, ?_, ?_, ?_, ?_⟩⟩
  · intro one a other b foundA foundB sessionA sessionB number
    exact eq_of_number foundA foundB (sessionA.trans sessionB.symm) number
  · intro token row found same below
    obtain ⟨next, following, target, also, later⟩ :=
      chained.numbered_of_le top (show row.pageNumber + 1 ≤ last from below)
    obtain ⟨source, before, sourceFound, sourceSession, number, committed, link, follows⟩ :=
      chained.predecessor target later
    obtain rfl := eq_of_number found sourceFound (by rw [same, sourceSession, also]) number.symm
    obtain rfl := Option.some.inj (found.symm.trans sourceFound)
    exact ⟨committed, next, following, link, target, also, later, follows⟩
  · intro token row found same tip
    cases link : row.nextToken with
    | none => rfl
    | some next =>
      obtain ⟨-, following, target, also, later, -⟩ := chained.linked token row next found link
      have bound := least ⟨next, following, target, also.trans same, rfl⟩
      omega
  · intro one a other b foundA foundB sessionA sessionB le
    exact chained.keeps foundA (b.pageNumber - a.pageNumber) other b foundB
      (sessionA.trans sessionB.symm) (by omega)

end Store

/-! ## Capacity -/

def Tally.within (counts limits : Tally) : Prop :=
  counts.total ≤ limits.total ∧ counts.tenant ≤ limits.tenant ∧
    counts.principal ≤ limits.principal

theorem tally_within_of_le {before after : List CursorBinding} {limits : Tally}
    (fewer : ∀ wanted : CursorBinding → Bool, after.countP wanted ≤ before.countP wanted)
    {tenant principal : String} (bounded : (tally before tenant principal).within limits) :
    (tally after tenant principal).within limits := by
  have total := fewer fun _ => true
  rw [List.countP_true] at total
  exact ⟨total.trans bounded.1, (fewer _).trans bounded.2.1, (fewer _).trans bounded.2.2⟩

theorem tally_within_of_insert {before after : List CursorBinding} {limits : Tally}
    {binding : CursorBinding}
    (counts : ∀ wanted : CursorBinding → Bool,
      after.countP wanted = before.countP wanted + if wanted binding = true then 1 else 0)
    (room : (tally before binding.tenantId binding.principalId).below limits)
    (bounded : ∀ tenant principal, (tally before tenant principal).within limits)
    (tenant principal : String) : (tally after tenant principal).within limits := by
  have total := counts fun _ => true
  rw [List.countP_true, if_pos rfl] at total
  refine ⟨total.trans_le room.1, ?_, ?_⟩
  · refine (counts _).trans_le ?_
    by_cases same : binding.tenantId = tenant
    · rw [if_pos (decide_eq_true same)]
      exact same ▸ room.2.1
    · rw [if_neg (by simpa using same)]
      exact (bounded tenant principal).2.1
  · refine (counts _).trans_le ?_
    by_cases same : binding.tenantId = tenant ∧ binding.principalId = principal
    · rw [if_pos (decide_eq_true same)]
      exact same.1 ▸ same.2 ▸ room.2.2
    · rw [if_neg (by simpa using same)]
      exact (bounded tenant principal).2.2

namespace Store

/-- No table of cursors is fuller than it may be. -/
structure Bounded (store : Store codec) : Prop where
  sessions : ∀ tenant principal,
    (tally store.sessionBindings tenant principal).within sessionLimits
  nodes : ∀ tenant principal, (tally store.nodeBindings tenant principal).within nodeLimits

theorem countP_sessionBindings (store : Store codec) (wanted : CursorBinding → Bool) :
    store.sessionBindings.countP wanted =
      store.sessions.sum fun _ held => if wanted held.binding = true then 1 else 0 := by
  unfold sessionBindings
  rw [List.countP_map]
  exact store.sessions.countP_toList fun _ held => wanted held.binding

def nodeWeight (store : Store codec) (wanted : CursorBinding → Bool) (session : UUID) : Nat :=
  if ((store.sessions.get session).any fun held => wanted held.binding) = true then 1 else 0

theorem countP_nodeBindings (store : Store codec) (wanted : CursorBinding → Bool) :
    store.nodeBindings.countP wanted =
      store.nodes.sum fun _ node => store.nodeWeight wanted node.session := by
  unfold nodeBindings nodeWeight
  rw [List.countP_filterMap, ← store.nodes.countP_toList fun _ node =>
    (store.sessions.get node.session).any fun held => wanted held.binding]
  congr 1
  funext entry
  cases store.sessions.get entry.2.session <;> rfl

theorem Bounded.expires (bounded : store.Bounded) {session : UUID} {now : Time}
    (gone : store.Expires session now after) : after.Bounded := by
  constructor
  · intro tenant principal
    refine tally_within_of_le (fun wanted => ?_) (bounded.sessions tenant principal)
    rw [countP_sessionBindings, countP_sessionBindings, gone.sessions]
    exact store.sessions.sum_retain_le _ _
  · intro tenant principal
    refine tally_within_of_le (fun wanted => ?_) (bounded.nodes tenant principal)
    rw [countP_nodeBindings, countP_nodeBindings]
    -- The nodes that are left belong to sessions that are left.
    have same : (after.nodes.sum fun _ node => after.nodeWeight wanted node.session) =
        after.nodes.sum fun _ node => store.nodeWeight wanted node.session := by
      refine Table.sum_congr fun token row found => ?_
      have other := (gone.get_nodes.mp found).2
      unfold nodeWeight
      rw [gone.sessions, Table.get_retain]
      simp [other]
    rw [same, gone.nodes]
    exact store.nodes.sum_retain_le _ _

theorem Bounded.opens (bounded : store.Bounded) (chained : store.Chained) {node : CursorNode}
    {binding : CursorBinding} (opened : store.Opens node binding after) : after.Bounded := by
  constructor
  · refine tally_within_of_insert (fun wanted => ?_) opened.sessionRoom bounded.sessions
    have total := opened.sessions.sum fun _ held => if wanted held.binding = true then 1 else 0
    rw [opened.newSession, Option.elim_none, Nat.add_zero] at total
    rw [countP_sessionBindings, countP_sessionBindings, total]
  · refine tally_within_of_insert (fun wanted => ?_) opened.nodeRoom bounded.nodes
    have total := opened.nodes.sum fun _ row => after.nodeWeight wanted row.session
    rw [opened.newNode, Option.elim_none, Nat.add_zero] at total
    have old : (store.nodes.sum fun _ row => after.nodeWeight wanted row.session) =
        store.nodes.sum fun _ row => store.nodeWeight wanted row.session := by
      refine Table.sum_congr fun token row found => ?_
      obtain ⟨held, present⟩ := chained.owned token row found
      unfold nodeWeight
      rw [opened.sessions.get_of_ne]
      intro same
      cases opened.newSession.symm.trans (same ▸ present)
    have new : after.nodeWeight wanted node.session = if wanted binding = true then 1 else 0 := by
      unfold nodeWeight
      rw [opened.sessions.get_self]
      rfl
    rw [countP_nodeBindings, countP_nodeBindings, total, old, new]

theorem Bounded.commits (bounded : store.Bounded) {token candidate : UUID}
    {binding : CursorBinding} {digest : PageDigest} {node : CursorNodeRow}
    {session : CursorSession} {next : Option CursorFrame} {result : Option UUID}
    (found : store.findNode token binding = some (node, session))
    (committed : store.Commits token candidate binding digest node next result after) :
    after.Bounded := by
  obtain ⟨present, held, bound⟩ := findNode_eq_some.mp found
  cases committed with
  | same => exact bounded
  | again => exact bounded
  | @closes nodes _ put =>
    refine ⟨bounded.sessions, fun tenant principal =>
      tally_within_of_le (fun wanted => ?_) (bounded.nodes tenant principal)⟩
    have total := put.sum fun _ row => store.nodeWeight wanted row.session
    rw [present, Option.elim_some] at total
    rw [countP_nodeBindings, countP_nodeBindings]
    exact (Nat.add_right_cancel total).le
  | @continued frame inserted nodes _ _ _ _ room newNode insert put =>
    refine ⟨bounded.sessions, tally_within_of_insert (fun wanted => ?_) room bounded.nodes⟩
    have first := insert.sum fun _ row => store.nodeWeight wanted row.session
    rw [newNode, Option.elim_none, Nat.add_zero] at first
    have apart : token ≠ candidate := by
      rintro rfl
      cases newNode.symm.trans present
    have second := put.sum fun _ row => store.nodeWeight wanted row.session
    rw [insert.get_of_ne apart, present, Option.elim_some] at second
    have weight : store.nodeWeight wanted node.session =
        if wanted binding = true then 1 else 0 := by
      unfold nodeWeight
      rw [held, ← bound]
      rfl
    rw [countP_nodeBindings, countP_nodeBindings, ← weight, ← first]
    exact Nat.add_right_cancel second

/-! ## What a call leaves of the rows before it -/

end Store

/-- A later version of a node row: once committed, it is the same row. -/
structure CursorNodeRow.Keeps (row later : CursorNodeRow) : Prop where
  session : later.session = row.session
  pageNumber : later.pageNumber = row.pageNumber
  metadata : later.metadata = row.metadata
  committed : row.pageDigest.isSome = true → later = row

theorem CursorNodeRow.Keeps.refl (row : CursorNodeRow) : row.Keeps row :=
  ⟨rfl, rfl, rfl, fun _ => rfl⟩

theorem CursorNodeRow.Keeps.trans {first second third : CursorNodeRow}
    (before : first.Keeps second) (after : second.Keeps third) : first.Keeps third where
  session := after.session.trans before.session
  pageNumber := after.pageNumber.trans before.pageNumber
  metadata := after.metadata.trans before.metadata
  committed done := by
    obtain rfl := before.committed done
    exact after.committed done

theorem CursorNodeRow.Keeps.of_pending {row later : CursorNodeRow} (pending : row.pageDigest = none)
    (session : later.session = row.session) (pageNumber : later.pageNumber = row.pageNumber)
    (metadata : later.metadata = row.metadata) : row.Keeps later where
  session := session
  pageNumber := pageNumber
  metadata := metadata
  committed done := by
    rw [pending] at done
    cases done

/-- What became of the rows that were stored: nodes go with their expired session only. -/
structure Store.Retains (store : Store codec) (now : Time) (drawn : List UUID)
    (after : Store codec) : Prop where
  nodeFrom : ∀ token row, after.nodes.get token = some row →
    token ∈ drawn ∨ ∃ old, store.nodes.get token = some old ∧ old.Keeps row
  sessionFrom : ∀ session held, after.sessions.get session = some held →
    session ∈ drawn ∨ store.sessions.get session = some held
  nodeTo : ∀ token row, store.nodes.get token = some row → token ∉ drawn →
    (∃ later, after.nodes.get token = some later) ∨
      ∃ held, store.sessions.get row.session = some held ∧ held.expiresAt ≤ now ∧
        (row.session ∉ drawn → after.sessions.get row.session = none)
  sessionTo : ∀ session held, store.sessions.get session = some held → session ∉ drawn →
    after.sessions.get session = some held ∨ held.expiresAt ≤ now

namespace Store

theorem Retains.of_eq {now : Time} {drawn : List UUID} (nodes : after.nodes = store.nodes)
    (sessions : after.sessions = store.sessions) : store.Retains now drawn after where
  nodeFrom _ row found := .inr ⟨row, nodes ▸ found, .refl row⟩
  sessionFrom _ _ found := .inr (sessions ▸ found)
  nodeTo _ row found _ := .inl ⟨row, nodes ▸ found⟩
  sessionTo _ _ found _ := .inl (sessions ▸ found)

theorem Expires.retains {session : UUID} {now later : Time} {drawn : List UUID}
    (gone : store.Expires session now after) (le : now ≤ later) :
    store.Retains later drawn after where
  nodeFrom token row found := .inr ⟨row, (gone.get_nodes.mp found).1, .refl row⟩
  sessionFrom key held found := .inr (gone.get_sessions.mp found).1
  nodeTo token row found _ := by
    by_cases same : row.session = session
    · obtain ⟨held, present, expired⟩ := gone.row
      refine .inr ⟨held, same ▸ present, expired.trans le, fun _ => ?_⟩
      rw [gone.sessions, Table.get_retain, same, present]
      simp
    · exact .inl ⟨row, gone.get_nodes.mpr ⟨found, same⟩⟩
  sessionTo key held found _ := by
    by_cases same : key = session
    · obtain ⟨row, present, expired⟩ := gone.row
      obtain rfl := Option.some.inj (present.symm.trans (same ▸ found))
      exact .inr (expired.trans le)
    · exact .inl (gone.get_sessions.mpr ⟨found, same⟩)

theorem Retains.opens {swept : Store codec} {now : Time} {drawn : List UUID} {node : CursorNode}
    {binding : CursorBinding} (before : store.Retains now drawn swept)
    (opened : swept.Opens node binding after) (token : node.token ∈ drawn)
    (session : node.session ∈ drawn) : store.Retains now drawn after where
  nodeFrom key row found := by
    rw [opened.nodes.get] at found
    split at found
    next same => exact .inl (same ▸ token)
    next => exact before.nodeFrom key row found
  sessionFrom key held found := by
    rw [opened.sessions.get] at found
    split at found
    next same => exact .inl (same ▸ session)
    next => exact before.sessionFrom key held found
  nodeTo key row found unused := by
    rcases before.nodeTo key row found unused with ⟨later, kept⟩ | ⟨held, present, expired, gone⟩
    · refine .inl ⟨later, ?_⟩
      rw [opened.nodes.get_of_ne, kept]
      rintro rfl
      exact unused token
    · refine .inr ⟨held, present, expired, fun other => ?_⟩
      rw [opened.sessions.get_of_ne, gone other]
      intro same
      exact other (same ▸ session)
  sessionTo key held found unused := by
    rcases before.sessionTo key held found unused with kept | expired
    · refine .inl ?_
      rw [opened.sessions.get_of_ne, kept]
      rintro rfl
      exact unused session
    · exact .inr expired

theorem Commits.retains {now : Time} {token candidate : UUID} {binding : CursorBinding}
    {digest : PageDigest} {node : CursorNodeRow} {next : Option CursorFrame}
    {result : Option UUID} (found : store.nodes.get token = some node)
    (committed : store.Commits token candidate binding digest node next result after) :
    store.Retains now [candidate] after := by
  cases committed with
  | same => exact .of_eq rfl rfl
  | again => exact .of_eq rfl rfl
  | @closes nodes pending put =>
    refine ⟨?_, fun _ _ present => .inr present, ?_, fun _ _ present _ => .inl present⟩
    · intro key row present
      rw [put.get] at present
      split at present
      next same =>
        cases present
        exact .inr ⟨node, same ▸ found, .of_pending pending rfl rfl rfl⟩
      next => exact .inr ⟨row, present, .refl row⟩
    · intro key row present _
      by_cases same : key = token
      · exact .inl ⟨_, same ▸ put.get_self⟩
      · exact .inl ⟨row, (put.get_of_ne same).trans present⟩
  | @continued frame inserted nodes pending valid number scope room newNode insert put =>
    refine ⟨?_, fun _ _ present => .inr present, ?_, fun _ _ present _ => .inl present⟩
    · intro key row present
      rcases get_extended insert put present with ⟨rfl, rfl⟩ | ⟨-, rfl, -⟩ | ⟨-, -, before⟩
      · exact .inr ⟨node, found, .of_pending pending rfl rfl rfl⟩
      · exact .inl (List.mem_singleton.mpr rfl)
      · exact .inr ⟨row, before, .refl row⟩
    · intro key row present unused
      by_cases same : key = token
      · exact .inl ⟨_, same ▸ put.get_self⟩
      · refine .inl ⟨row, ?_⟩
        rw [put.get_of_ne same, insert.get_of_ne (List.mem_singleton.not.mp unused), present]

theorem Publishes.cursors {clock : PutClock} {fresh : UUID} {binding : CursorBinding}
    {vector : PublicationVector} {parent : Option UUID} {bookmark : PublicationBookmark}
    (published : store.Publishes clock fresh binding vector parent bookmark after) :
    after.nodes = store.nodes ∧ after.sessions = store.sessions := by
  cases published with
  | idle => exact ⟨rfl, rfl⟩
  | reuses => exact ⟨rfl, rfl⟩
  | inserts _ _ expired =>
    obtain ⟨sessions, nodes, -⟩ := expireBookmark_eq_ok expired
    exact ⟨nodes, sessions⟩

theorem Chained.of_eq (chained : store.Chained) (nodes : after.nodes = store.nodes)
    (sessions : after.sessions = store.sessions) : after.Chained where
  valid := nodes ▸ chained.valid
  owned := nodes ▸ sessions ▸ chained.owned
  rooted := nodes ▸ sessions ▸ chained.rooted
  linked := nodes ▸ chained.linked
  preceded := nodes ▸ chained.preceded

theorem Bounded.of_eq (bounded : store.Bounded) (nodes : after.nodes = store.nodes)
    (sessions : after.sessions = store.sessions) : after.Bounded := by
  have sameSessions : after.sessionBindings = store.sessionBindings := by
    unfold sessionBindings
    rw [sessions]
  have sameNodes : after.nodeBindings = store.nodeBindings := by
    unfold nodeBindings
    rw [nodes, sessions]
  exact ⟨sameSessions ▸ bounded.sessions, sameNodes ▸ bounded.nodes⟩

end Store

/-! ## Runs -/

namespace StoreState

variable {state next : StoreState codec} {event : StoreEvent}

theorem Moves.retains (moves : state.Moves event next) :
    state.store.Retains next.now event.drawn next.store := by
  cases moves with
  | none same _ => exact .of_eq (same ▸ rfl) (same ▸ rfl)
  | @create _ _ _ _ token session _ _ _ _ _ clock done =>
    obtain ⟨rfl, swept, expired, opened⟩ := Store.createIncidentCursor_eq_ok done
    have before : state.store.Retains next.now [token, session] swept := by
      rcases Store.expireSession_eq_ok expired with rfl | ⟨session, -, gone⟩
      · exact .of_eq rfl rfl
      · exact gone.retains clock
    exact before.opens opened (by simp) (by simp)
  | commit _ done =>
    obtain ⟨node, session, found, -, committed⟩ := Store.commitIncidentCursorPage_eq_ok done
    exact committed.retains (Store.findNode_eq_some.mp found).1
  | put _ _ _ _ done =>
    obtain ⟨nodes, sessions⟩ := (Store.putPublicationBookmark_eq_ok done).2.cursors
    exact .of_eq nodes sessions

/-- What every reached state keeps about its cursors. -/
structure Sound (state : StoreState codec) : Prop where
  chained : state.store.Chained
  bounded : state.store.Bounded
  nodes : ∀ token row, state.store.nodes.get token = some row → token ∈ state.issued
  sessions : ∀ session held, state.store.sessions.get session = some held →
    session ∈ state.issued

theorem Sound.chained_bounded (sound : state.Sound) (moves : state.Moves event next) :
    next.store.Chained ∧ next.store.Bounded := by
  cases moves with
  | none same _ => exact ⟨same ▸ sound.chained, same ▸ sound.bounded⟩
  | create _ _ done =>
    obtain ⟨rfl, swept, expired, opened⟩ := Store.createIncidentCursor_eq_ok done
    have before : swept.Chained ∧ swept.Bounded := by
      rcases Store.expireSession_eq_ok expired with rfl | ⟨session, -, gone⟩
      · exact ⟨sound.chained, sound.bounded⟩
      · exact ⟨sound.chained.expires gone, sound.bounded.expires gone⟩
    exact ⟨before.1.opens opened, before.2.opens before.1 opened⟩
  | commit _ done =>
    obtain ⟨node, session, found, -, committed⟩ := Store.commitIncidentCursorPage_eq_ok done
    exact ⟨sound.chained.commits (Store.findNode_eq_some.mp found).1 committed,
      sound.bounded.commits found committed⟩
  | put _ _ _ _ done =>
    obtain ⟨nodes, sessions⟩ := (Store.putPublicationBookmark_eq_ok done).2.cursors
    exact ⟨sound.chained.of_eq nodes sessions, sound.bounded.of_eq nodes sessions⟩

theorem Sound.step (sound : state.Sound) (stepped : state.step event = some next) :
    next.Sound := by
  obtain ⟨moves, -, issued, -⟩ := step_moves stepped
  obtain ⟨chained, bounded⟩ := sound.chained_bounded moves
  have retained := moves.retains
  refine ⟨chained, bounded, ?_, ?_⟩
  · intro token row found
    rw [issued, List.mem_append]
    rcases retained.nodeFrom token row found with drawn | ⟨old, before, -⟩
    · exact .inl drawn
    · exact .inr (sound.nodes token old before)
  · intro session held found
    rw [issued, List.mem_append]
    rcases retained.sessionFrom session held found with drawn | before
    · exact .inl drawn
    · exact .inr (sound.sessions session held before)

theorem sound_of_reachable {guard : StoreState codec → StoreEvent → Prop}
    (reached : (storeSystem codec).Reachable guard state) : state.Sound := by
  refine reached.induction ?_ fun _ _ _ _ sound _ stepped => sound.step stepped
  rintro _ ⟨now, rfl⟩
  refine ⟨.empty, ⟨fun _ _ => ?_, fun _ _ => ?_⟩, ?_, ?_⟩
  · exact ⟨Nat.zero_le _, Nat.zero_le _, Nat.zero_le _⟩
  · exact ⟨Nat.zero_le _, Nat.zero_le _, Nat.zero_le _⟩
  · intro _ _ found
    cases found
  · exact nofun

/-- A node row in two states of a run is the same row, up to the commit of a pending one. -/
theorem keeps_of_steps {guard : StoreState codec → StoreEvent → Prop} {later : StoreState codec}
    (reached : (storeSystem codec).Reachable guard state)
    (steps : (storeSystem codec).Steps guard state later) {token : UUID}
    {row kept : CursorNodeRow} (before : state.store.nodes.get token = some row)
    (after : later.store.nodes.get token = some kept) : row.Keeps kept := by
  -- A token that was drawn never comes back with another row.
  have origin : state.issued ⊆ later.issued ∧ ∀ token ∈ state.issued, ∀ kept,
      later.store.nodes.get token = some kept →
        ∃ row, state.store.nodes.get token = some row ∧ row.Keeps kept := by
    refine System.Steps.induction (R := fun source target => source.issued ⊆ target.issued ∧
      ∀ token ∈ source.issued, ∀ kept, target.store.nodes.get token = some kept →
        ∃ row, source.store.nodes.get token = some row ∧ row.Keeps kept) reached steps ?_ ?_ ?_
    · exact fun _ => ⟨fun _ => id, fun _ _ kept found => ⟨kept, found, .refl kept⟩⟩
    · intro a b c first second
      refine ⟨List.Subset.trans first.1 second.1, fun token drawn kept found => ?_⟩
      obtain ⟨middle, present, keep⟩ := second.2 token (first.1 drawn) kept found
      obtain ⟨row, there, also⟩ := first.2 token drawn middle present
      exact ⟨row, there, also.trans keep⟩
    · intro source event target _ _ stepped
      obtain ⟨moves, -, issued, fresh⟩ := step_moves stepped
      refine ⟨fun id member => issued ▸ List.mem_append_right _ member, ?_⟩
      intro token drawn kept found
      rcases moves.retains.nodeFrom token kept found with new | old
      · exact absurd drawn (fresh token new)
      · exact old
  have drawn := (sound_of_reachable reached).nodes token row before
  obtain ⟨old, present, keeps⟩ := origin.2 token drawn kept after
  rwa [Option.some.inj (present.symm.trans before)] at keeps

theorem store_eq_of_failure {error : CursorError} (failed : state.failure event = some error)
    (stepped : state.step event = some next) : next.store = state.store := by
  have rolledBack {α : Type} {now : Time} {drawn : List UUID}
      {result : Except CursorError (α × Store codec)} (failed : errorOf result = some error) :
      (state.commit now drawn result).store = state.store := by
    cases result with
    | error _ => rfl
    | ok _ => cases failed
  cases event with
  | create =>
    simp only [step] at stepped
    split at stepped
    next =>
      cases stepped
      exact rolledBack failed
    next => cases stepped
  | load =>
    simp only [step] at stepped
    split at stepped
    next =>
      cases stepped
      rfl
    next => cases stepped
  | commit =>
    simp only [step] at stepped
    split at stepped
    next =>
      cases stepped
      exact rolledBack failed
    next => cases stepped
  | put =>
    simp only [step] at stepped
    split at stepped
    next =>
      cases stepped
      exact (answer_store _ _ _).trans (rolledBack failed)
    next => cases stepped
  | read =>
    simp only [step] at stepped
    split at stepped
    next =>
      cases stepped
      rfl
    next => cases stepped

/-- A node vanishes only with its session, and only when that has expired. -/
theorem expired_of_vanished (sound : state.Sound) (stepped : state.step event = some next)
    {token : UUID} {row : CursorNodeRow} (before : state.store.nodes.get token = some row)
    (gone : next.store.nodes.get token = none) :
    ∃ held, state.store.sessions.get row.session = some held ∧ held.expiresAt ≤ next.now ∧
      next.store.sessions.get row.session = none := by
  obtain ⟨moves, -, -, fresh⟩ := step_moves stepped
  have unused {id : UUID} (drawn : id ∈ state.issued) : id ∉ event.drawn :=
    fun member => fresh id member drawn
  rcases moves.retains.nodeTo token row before (unused (sound.nodes token row before)) with
    ⟨later, kept⟩ | ⟨held, present, expired, removed⟩
  · cases gone.symm.trans kept
  · exact ⟨held, present, expired, removed (unused (sound.sessions _ held present))⟩

end StoreState

/-- In every reached state the nodes of each session form one chain within the
limits; rows are never altered later, vanish only with an expired session, and a
call that fails changes nothing. -/
theorem cursor_sessions_chained {state : StoreState codec}
    (reached : (storeSystem codec).Reachable System.always state) :
    (∀ token row, state.store.nodes.get token = some row →
      ∃ held, state.store.sessions.get row.session = some held) ∧
    (∀ session held, state.store.sessions.get session = some held →
      ∃ last, state.store.ChainOf session last) ∧
    state.store.Bounded ∧
    (∀ later, (storeSystem codec).Steps System.always state later → ∀ token row kept,
      state.store.nodes.get token = some row → later.store.nodes.get token = some kept →
        row.Keeps kept) ∧
    ∀ event next, (storeSystem codec).step state event = some next →
      (∀ token row, state.store.nodes.get token = some row →
        next.store.nodes.get token = none →
          ∃ held, state.store.sessions.get row.session = some held ∧
            held.expiresAt ≤ next.now ∧ next.store.sessions.get row.session = none) ∧
      ∀ error, state.failure event = some error → next.store = state.store := by
  have sound := StoreState.sound_of_reachable reached
  refine ⟨sound.chained.owned, fun session held present => sound.chained.chainOf present,
    sound.bounded, ?_, ?_⟩
  · intro later steps token row kept before after
    exact StoreState.keeps_of_steps reached steps before after
  · intro event next stepped
    exact ⟨fun token row before gone => StoreState.expired_of_vanished sound stepped before gone,
      fun error failed => StoreState.store_eq_of_failure failed stepped⟩

/-- A session of two pages whose first commit is repeated. -/
def twoPages : List StoreEvent :=
  [.create true none 0 0 1 2 sampleBinding (sampleFrame 0 0),
    .commit true 0 3 1 sampleBinding (.text sampleDigest) (some (sampleFrame 1 1)),
    .commit true 0 4 1 sampleBinding (.text sampleDigest) (some (sampleFrame 1 1))]

theorem cursor_sessions_chained_twoPages :
    ∃ state, replayStore twoPages = some state ∧
      state.store.nodes.toList.map (fun entry => (entry.1, entry.2.pageNumber, entry.2.nextToken)) =
        [(1, 0, some 3), (3, 1, none)] ∧
      ∀ session held, state.store.sessions.get session = some held →
        ∃ last, state.store.ChainOf session last := by
  obtain ⟨state, replayed, reached, checked⟩ := replayStore_reachable twoPages (fun state =>
    decide (state.store.nodes.toList.map
      (fun entry => (entry.1, entry.2.pageNumber, entry.2.nextToken)) =
        [(1, 0, some 3), (3, 1, none)])) (by decide +kernel)
  exact ⟨state, replayed, of_decide_eq_true checked, (cursor_sessions_chained reached).2.1⟩

end OufMcp.Cursor
