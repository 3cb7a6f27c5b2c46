import OufMcp.Cursor.Captures

/-!
# Continuations that owners announce

A position keeps the cursor of a page, its snapshot, its digests and its publication
fields, but not the continuation the page was read with.  A page that is read again is
compared with the position alone, so another continuation is noticed only where the
publication fields imply it: under publication coverage, when one of the two pages is
the last one.  Where every change is of that kind, each response is composed from the
pages as they were captured, and one without a continuation has followed all of them.
A token for which a page was committed needs no such condition, since only that page is
returned for it again.
-/

namespace OufMcp.Cursor

open Ledger (UUID Time)
open Relational Transition Interaction

variable {codec : Codec}

/-! ## A page that is read again -/

/-- The page has the items, digests and cursors it was captured with, and announces another
continuation. -/
def CursorOwnerPage.changed (saved page : CursorOwnerPage codec) : Bool :=
  decide (page.cursor = saved.cursor ∧ page.snapshotRef = saved.snapshotRef ∧
    page.items = saved.items ∧ page.itemsDigest = saved.itemsDigest ∧
    (page.nextCursor ≠ saved.nextCursor ∨ page.truncated ≠ saved.truncated))

/-- One of the two pages is the last one of a publication. -/
def noticeable (frame : CursorFrame) (saved page : CursorOwnerPage codec) : Bool :=
  frame.publicationCoverage && (decide (saved.nextCursor = "") || decide (page.nextCursor = ""))

variable (codec) in
def reread (frame : CursorFrame) (answer : OwnerRead → OwnerReply) (position : OwnerPosition) :
    Except CursorError (CursorOwnerPage codec) :=
  (readPage codec frame.filters position.name position.cursor frame.publicationCoverage).run answer

/-- An event that reads pages again, for a token without a committed page, finds none changed
but noticeably. -/
def noticing (run : Composers codec × Captures codec) : ComposerEvent → Bool
  | .readBack call answer _ =>
    match run.1.calls call with
    | .loaded _ _ node => run.1.delivered node.token || node.frame.owners.all fun position =>
      match reread codec node.frame answer position, run.2 node.token position.name with
      | .ok page, saved :: _ => !saved.changed page || noticeable node.frame saved page
      | _, _ => true
    | _ => true
  | _ => true

/-- Under publication coverage a page has a bookmark exactly when it is the last one. -/
theorem CursorOwnerPage.Suits.bookmark_iff (nil : canonicalPublicationToken codec "" = false)
    {frame : CursorFrame} {name : Producer} {page : CursorOwnerPage codec}
    (suits : page.Suits frame name) (coverage : frame.publicationCoverage = true) :
    page.publicationBookmark ≠ "" ↔ page.nextCursor = "" := by
  constructor
  · intro present
    by_contra more
    exact present (suits.continued more).1
  · intro last absent
    have canonical := (suits.last coverage last).1
    rw [absent, nil] at canonical
    cases canonical

section Reread

variable {frame : CursorFrame} {position : OwnerPosition} {saved page : CursorOwnerPage codec}
  {answer : OwnerRead → OwnerReply}

theorem OwnerPosition.Saved.suits (proper : frame.Proper codec) (member : position ∈ frame.owners)
    (on : position.On page) (covered : checkCoverage frame position.name page = .ok ()) :
    page.Suits frame position.name := by
  refine ⟨covered, fun uncovered => ?_⟩
  have fits := proper.fits position member
  rw [OwnerPosition.Fits, uncovered, if_neg Bool.false_ne_true] at fits
  rw [← on.bookmark, ← on.parent]
  exact fits

/-- A changed page passes for the captured one exactly when it does not change noticeably. -/
theorem OwnerPosition.Saved.on_iff (nil : canonicalPublicationToken codec "" = false)
    (kept : position.Saved frame saved) (suitsSaved : saved.Suits frame position.name)
    (suits : page.Suits frame position.name) (flagged : page.Flagged)
    (changed : saved.changed page = true) :
    position.On page ↔ noticeable frame saved page = false := by
  obtain ⟨cursor, snapshotRef, items, itemsDigest, differs⟩ := of_decide_eq_true changed
  have differ : page.nextCursor ≠ saved.nextCursor := by
    intro same
    rcases differs with other | flag
    · exact other same
    · rw [flagged, kept.flagged, same] at flag
      exact flag rfl
  have on : position.On page ↔ page.publicationBookmark = saved.publicationBookmark ∧
      page.parentBookmark = saved.parentBookmark := by
    constructor
    · intro here
      exact ⟨here.bookmark.symm.trans kept.on.bookmark, here.parent.symm.trans kept.on.parent⟩
    · rintro ⟨bookmark, parent⟩
      exact ⟨kept.on.cursor.trans cursor.symm, kept.on.snapshotRef.trans snapshotRef.symm,
        kept.on.items.trans (congrArg Digest.mk items.symm),
        kept.on.ownerDigest.trans itemsDigest.symm, items ▸ kept.on.offset,
        kept.on.bookmark.trans bookmark.symm, kept.on.parent.trans parent.symm⟩
  rw [on, noticeable]
  cases coverage : frame.publicationCoverage with
  | false =>
    have plain := suits.plain coverage
    have plainSaved := suitsSaved.plain coverage
    simp [plain, plainSaved]
  | true =>
    simp only [Bool.true_and, Bool.or_eq_false_iff, decide_eq_false_iff_not]
    constructor
    · rintro ⟨same, -⟩
      have both : page.nextCursor = "" ↔ saved.nextCursor = "" := by
        rw [← suits.bookmark_iff nil coverage, ← suitsSaved.bookmark_iff nil coverage, same]
      exact ⟨fun last => differ ((both.mpr last).trans last.symm),
        fun last => differ (last.trans (both.mp last).symm)⟩
    · rintro ⟨moreSaved, more⟩
      obtain ⟨bookmark, parent⟩ := suits.continued more
      obtain ⟨bookmarkSaved, parentSaved⟩ := suitsSaved.continued moreSaved
      exact ⟨bookmark.trans bookmarkSaved.symm, parent.trans parentSaved.symm⟩

/-- A page that passes for the captured one without a noticeable change has its continuation. -/
theorem OwnerPosition.Saved.nextCursor_eq (nil : canonicalPublicationToken codec "" = false)
    (proper : frame.Proper codec) (member : position ∈ frame.owners)
    (kept : position.Saved frame saved) (on : position.On page)
    (covered : checkCoverage frame position.name page = .ok ()) (flagged : page.Flagged)
    (noticed : saved.changed page = true → noticeable frame saved page = true) :
    page.nextCursor = saved.nextCursor := by
  by_contra differ
  have items : page.items = saved.items :=
    congrArg Digest.content (on.items.symm.trans kept.on.items)
  have changed : saved.changed page = true := by
    refine decide_eq_true ⟨on.cursor.symm.trans kept.on.cursor,
      on.snapshotRef.symm.trans kept.on.snapshotRef, items,
      on.ownerDigest.symm.trans kept.on.ownerDigest, .inl differ⟩
  have suitsSaved := OwnerPosition.Saved.suits proper member kept.on kept.covered
  have suits := OwnerPosition.Saved.suits proper member on covered
  have unnoticed := (kept.on_iff nil suitsSaved suits flagged changed).mp on
  rw [noticed changed] at unnoticed
  cases unnoticed

theorem readBackOwner_eq_ok_iff :
    (readBackOwner frame position).run answer = .ok page ↔
      reread codec frame answer position = .ok page ∧
        checkCoverage frame position.name page = .ok () ∧ position.On page := by
  simp only [readBackOwner, Dialogue.run_bind_eq_ok]
  constructor
  · rintro ⟨other, read, _, covered, _, same, done⟩
    cases done
    exact ⟨read, covered, sameOwnerPage_eq_true.mp (ensure_eq_ok.mp same)⟩
  · rintro ⟨read, covered, on⟩
    exact ⟨page, read, (), covered, (), ensure_eq_ok.mpr (sameOwnerPage_eq_true.mpr on), rfl⟩

end Reread

/-! ## Runs -/

def Phase.work? : Phase codec → Option (Work codec)
  | .holding work => some work
  | .composed draft => some draft.toWork
  | .ready draft _ _ => some draft.toWork
  | _ => none

theorem Phase.node?_of_work? {phase : Phase codec} {work : Work codec}
    (found : phase.work? = some work) : phase.node? = some work.node := by
  cases phase <;> cases found <;> rfl

theorem Work.Faithful.congr {captures after : Captures codec} {work : Work codec}
    (faithful : work.Faithful captures)
    (same : after work.node.token = captures work.node.token) : work.Faithful after := by
  unfold Work.Faithful
  rw [same]
  exact faithful

/-- Nodes were followed from their first pages, and what is composed is composed from pages as
they were captured, or for a token that has a committed page. -/
structure Unbroken (state : Composers codec) (captures : Captures codec) : Prop where
  nodes : ∀ node ∈ state.created, ∀ position ∈ node.frame.owners,
    position.Followed (captures node.token position.name)
  phases : ∀ call work, (state.calls call).work? = some work →
    work.Faithful captures ∨ state.delivered work.node.token = true
  log : ∀ delivery ∈ state.log, ∃ first ∈ state.log,
    first.node.token = delivery.node.token ∧ first.toWork.Faithful captures

section Unbroken

variable {state next : Composers codec} {captures : Captures codec} {event : ComposerEvent}

theorem Unbroken.enters (follows : Unbroken state captures) {phase : Phase codec}
    (enters : state.Enters event next phase)
    (here : ∀ work, phase.work? = some work →
      work.Faithful captures ∨ state.delivered work.node.token = true) :
    Unbroken next (captures.step state next event) := by
  have log : next.delivered = state.delivered := by
    unfold Composers.delivered
    rw [enters.log]
  rw [Captures.step_same enters.created]
  refine ⟨enters.created ▸ follows.nodes, ?_, enters.log ▸ follows.log⟩
  rw [log]
  exact Composers.forall_calls (P := fun phase => ∀ work, phase.work? = some work →
    work.Faithful captures ∨ state.delivered work.node.token = true) enters.calls here
    follows.phases

theorem Unbroken.cons (follows : Unbroken state captures) (kept : state.Kept) {node : CursorNode}
    (unused : node.token ∉ state.stored.issued)
    (pages : Producer → List (CursorOwnerPage codec))
    (here : ∀ position ∈ node.frame.owners, position.Followed (pages position.name)) :
    (∀ other ∈ node :: state.created, ∀ position ∈ other.frame.owners,
      position.Followed (Function.update captures node.token pages other.token position.name)) ∧
    (∀ call work, (state.calls call).work? = some work →
      work.Faithful (Function.update captures node.token pages) ∨
        state.delivered work.node.token = true) ∧
    ∀ delivery ∈ state.log, ∃ first ∈ state.log, first.node.token = delivery.node.token ∧
      first.toWork.Faithful (Function.update captures node.token pages) := by
  have apart {other : CursorNode} (old : other ∈ state.created) :
      Function.update captures node.token pages other.token = captures other.token := by
    refine Function.update_of_ne ?_ ..
    intro same
    exact unused (same ▸ (kept.issued other old).1)
  refine ⟨fun other member => ?_, fun call work found => ?_, fun delivery logged => ?_⟩
  · rcases List.mem_cons.mp member with rfl | old
    · rwa [Function.update_self]
    · rw [apart old]
      exact follows.nodes other old
  · have old := kept.held call work.node (Phase.node?_of_work? found)
    exact (follows.phases call work found).imp_left fun faithful => faithful.congr (apart old)
  · obtain ⟨first, there, same, faithful⟩ := follows.log delivery logged
    exact ⟨first, there, same, faithful.congr (apart (kept.delivered first there).2.1)⟩

theorem followed_captured {blank captured : CursorFrame} {self : Option SelfReply}
    {pages : Producer → CursorOwnerPage codec} {answer : OwnerRead → OwnerReply}
    (ran : (capture codec blank self).run answer = .ok (captured, pages)) :
    ∀ position ∈ captured.owners, position.Followed [pages position.name] := by
  obtain ⟨-, status, gateway, ingestion, rfl, -⟩ := capture_eq_ok ran
  intro position member
  refine ⟨List.isChain_singleton _, ?_, ?_⟩
  all_goals rcases List.mem_pair.mp member with rfl | rfl
  all_goals simp [CursorOwnerPage.position]

/-- Pages that are read again without an unnoticed change are those that were captured. -/
theorem faithful_of_noticing (nil : canonicalPublicationToken codec "" = false)
    (saves : Saves state captures) {node : CursorNode} (member : node ∈ state.created)
    (valid : validateCursorFrame codec node.frame = .ok ()) {caller : Caller}
    {binding : CursorBinding} {answer : OwnerRead → OwnerReply} {self : Option SelfReply}
    {pages : Producer → CursorOwnerPage codec}
    (ran : (readBack codec node.frame self).run answer = .ok pages)
    (noticed : ∀ position ∈ node.frame.owners, ∀ page saved earlier,
      reread codec node.frame answer position = .ok page →
      captures node.token position.name = saved :: earlier → saved.changed page = true →
        noticeable node.frame saved page = true) :
    (⟨caller, binding, node, pages⟩ : Work codec).Faithful captures := by
  intro position there saved head
  obtain ⟨on, covered, back⟩ := readBack_eq_ok ran (validateCursorFrame_names valid) position there
  obtain ⟨read, -⟩ := readBackOwner_eq_ok_iff.mp back
  obtain ⟨found, earlier, captured, kept⟩ := saves node member position there
  rw [captured] at head
  obtain rfl := Option.some.inj head
  exact kept.nextCursor_eq nil (validateCursorFrame_proper valid) there on covered
    (readPage_flagged read) (noticed position there _ _ _ read captured)

/-- A response is committed: it was composed from pages as they were captured, or there is one
already that was. -/
theorem Unbroken.commits {call : Nat} {after : Captures codec} {delivery : Delivery codec}
    {result : Except CursorError (CursorPage × Option UUID)}
    (nodes : ∀ node ∈ next.created, ∀ position ∈ node.frame.owners,
      position.Followed (after node.token position.name))
    (phases : ∀ call work, (state.calls call).work? = some work →
      work.Faithful after ∨ state.delivered work.node.token = true)
    (logged : ∀ delivery ∈ state.log, ∃ first ∈ state.log,
      first.node.token = delivery.node.token ∧ first.toWork.Faithful after)
    (calls : next.calls = Function.update state.calls call (.returned result))
    (log : next.log = delivery :: state.log)
    (here : delivery.toWork.Faithful after ∨ state.delivered delivery.node.token = true) :
    Unbroken next after := by
  have grown {token : UUID} (delivered : state.delivered token = true) :
      next.delivered token = true := by
    obtain ⟨old, member, same⟩ := Composers.delivered_eq_true.mp delivered
    exact Composers.delivered_eq_true.mpr ⟨old, log ▸ List.mem_cons_of_mem _ member, same⟩
  refine ⟨nodes, ?_, ?_⟩
  · refine Composers.forall_calls (P := fun phase => ∀ work, phase.work? = some work →
      work.Faithful after ∨ next.delivered work.node.token = true) calls ?_ ?_
    · rintro _ ⟨⟩
    · exact fun other work found => (phases other work found).imp_right grown
  · rw [log]
    intro other member
    rcases List.mem_cons.mp member with rfl | old
    · rcases here with faithful | delivered
      · exact ⟨other, List.mem_cons_self, rfl, faithful⟩
      · obtain ⟨earlier, there, same⟩ := Composers.delivered_eq_true.mp delivered
        obtain ⟨first, found, agrees, faithful⟩ := logged earlier there
        exact ⟨first, List.mem_cons_of_mem _ found, agrees.trans same, faithful⟩
    · obtain ⟨first, found, agrees, faithful⟩ := logged other old
      exact ⟨first, List.mem_cons_of_mem _ found, agrees, faithful⟩

theorem noticing_readBack {run : Composers codec × Captures codec} {call : Nat} {caller : Caller}
    {binding : CursorBinding} {node : CursorNode} {answer : OwnerRead → OwnerReply}
    {self : Option SelfReply} (before : run.1.calls call = .loaded caller binding node)
    (allowed : noticing run (.readBack call answer self) = true) :
    run.1.delivered node.token = true ∨ ∀ position ∈ node.frame.owners, ∀ page saved earlier,
      reread codec node.frame answer position = .ok page →
      run.2 node.token position.name = saved :: earlier → saved.changed page = true →
        noticeable node.frame saved page = true := by
  simp only [noticing, before, Bool.or_eq_true, List.all_eq_true] at allowed
  refine allowed.imp_right fun all position member page saved earlier read captured changed => ?_
  have here := all position member
  rw [read, captured] at here
  simpa [changed] using here

theorem Unbroken.step (nil : canonicalPublicationToken codec "" = false)
    (follows : Unbroken state captures) (saves : Saves state captures) (kept : state.Kept)
    (stored : state.stored.Sound) (allowed : noticing (state, captures) event = true)
    (outcome : state.Outcome event next) : Unbroken next (captures.step state next event) := by
  have idle {phase : Phase codec} (none : phase.work? = none) : ∀ work,
      phase.work? = some work →
        work.Faithful captures ∨ state.delivered work.node.token = true := by
    intro work found
    rw [none] at found
    cases found
  cases outcome with
  | fails enters => exact follows.enters enters (idle rfl)
  | resumes _ _ _ enters => exact follows.enters enters (idle rfl)
  | loads _ _ _ enters => exact follows.enters enters (idle rfl)
  | @readsBack call _ _ node _ _ _ _ before ran enters =>
    refine follows.enters enters ?_
    rintro _ ⟨⟩
    have member : node ∈ state.created := kept.held call node (before ▸ rfl)
    refine (noticing_readBack before allowed).symm.imp_left fun noticed => ?_
    exact faithful_of_noticing nil saves member (kept.valid node member) ran noticed
  | @composes call work _ _ _ before _ enters =>
    refine follows.enters enters ?_
    rintro _ ⟨⟩
    exact follows.phases call work (before ▸ rfl)
  | @seals call _ _ _ _ draft _ _ _ _ before _ _ _ enters =>
    refine follows.enters enters ?_
    rintro _ ⟨⟩
    exact follows.phases call draft.toWork (before ▸ rfl)
  | @opens _ _ work _ _ _ _ opens =>
    obtain ⟨nodes, phases, logged⟩ := follows.cons kept opens.unused.1
      (fun name => [work.pages name]) (followed_captured opens.ran)
    have delivered : next.delivered = state.delivered := by
      unfold Composers.delivered
      rw [opens.log]
    rw [Captures.step_opens opens]
    refine ⟨opens.created ▸ nodes, ?_, opens.log ▸ logged⟩
    rw [delivered]
    refine Composers.forall_calls (P := fun phase => ∀ work, phase.work? = some work →
      work.Faithful _ ∨ state.delivered work.node.token = true) opens.calls ?_ phases
    rintro _ ⟨⟩
    refine .inl fun position member saved head => ?_
    rw [Function.update_self] at head
    rw [← Option.some.inj head]
  | @commits call _ _ _ delivery _ commits =>
    obtain ⟨member, names, sound, sealing⟩ := kept.ready commits.before
    have here := follows.phases call delivery.toWork (commits.before ▸ rfl)
    rcases kept.commits_cases stored commits with same |
      ⟨new, created, leads, continued, fresh, pending⟩
    · rw [Captures.step_same same]
      exact .commits (same ▸ follows.nodes) follows.phases follows.log commits.calls commits.log
        here
    · -- A continuation is opened for a token that had no committed page.
      have faithful : delivery.toWork.Faithful captures := by
        refine here.resolve_right ?_
        rw [pending]
        exact Bool.false_ne_true
      have path : ∀ position ∈ new.frame.owners, position.Followed
          (delivery.toDraft.captured (captures delivery.node.token) position.name) := by
        rw [(continued ▸ sealing : delivery.toDraft.Sealed _ (some new.frame)).continuation_eq.2]
        intro position there
        exact delivery.toDraft.followed_captured sound names (saves _ member)
          (follows.nodes _ member) faithful there
      obtain ⟨nodes, phases, logged⟩ := follows.cons kept fresh _ path
      rw [Captures.step_commits commits created leads]
      have apart : delivery.node.token ≠ new.token := fun same =>
        fresh (same ▸ (kept.issued _ member).1)
      exact .commits (created ▸ nodes) phases logged commits.calls commits.log
        (.inl (faithful.congr (Function.update_of_ne apart ..)))

end Unbroken

/-! ## What is noticed -/

def Composers.Fails (state : Composers codec) (event : ComposerEvent) : Prop :=
  ∃ next error, (composerSystem codec).step state event = some next ∧
    next.calls event.call = .returned (.error error)

/-- The page that was captured for a position, and the one that is read for it again. -/
structure Rereads (run : Composers codec × Captures codec) (node : CursorNode)
    (answer : OwnerRead → OwnerReply) (position : OwnerPosition)
    (saved page : CursorOwnerPage codec) : Prop where
  captured : ∃ earlier, run.2 node.token position.name = saved :: earlier
  read : reread codec node.frame answer position = .ok page

section Noticed

variable {run : Composers codec × Captures codec} {call : Nat} {caller : Caller}
  {binding : CursorBinding} {node : CursorNode} {answer : OwnerRead → OwnerReply}
  {self : Option SelfReply} {position : OwnerPosition} {saved page : CursorOwnerPage codec}

theorem readBack_fails_iff {state : Composers codec}
    (before : state.calls call = .loaded caller binding node) :
    state.Fails (.readBack call answer self) ↔
      ¬ ∃ pages, (readBack codec node.frame self).run answer = .ok pages := by
  simp only [Composers.Fails, composerSystem, Composers.step, before, Option.some.injEq,
    ComposerEvent.call, Composers.enterOr]
  cases (readBack codec node.frame self).run answer with
  | error error => simp [Composers.enter]
  | ok pages => simp [Composers.enter]

theorem Rereads.position_saved (rereads : Rereads run node answer position saved page)
    (saves : node.SavedIn (run.2 node.token)) (member : position ∈ node.frame.owners) :
    position.Saved node.frame saved := by
  obtain ⟨earlier, captured⟩ := rereads.captured
  obtain ⟨found, _, also, kept⟩ := saves position member
  obtain ⟨rfl, -⟩ := List.cons.inj (captured.symm.trans also)
  exact kept

/-- A changed page is read back exactly when the change is not noticeable. -/
theorem Rereads.readBack_iff (nil : canonicalPublicationToken codec "" = false)
    (rereads : Rereads run node answer position saved page)
    (saves : node.SavedIn (run.2 node.token)) (proper : node.frame.Proper codec)
    (member : position ∈ node.frame.owners) (suits : page.Suits node.frame position.name)
    (changed : saved.changed page = true) :
    (∃ other : CursorOwnerPage codec,
      (readBackOwner node.frame position).run answer = .ok other) ↔
      noticeable node.frame saved page = false := by
  have kept := rereads.position_saved saves member
  have suitsSaved := OwnerPosition.Saved.suits proper member kept.on kept.covered
  rw [← kept.on_iff nil suitsSaved suits (readPage_flagged rereads.read) changed]
  constructor
  · rintro ⟨other, back⟩
    obtain ⟨read, -, on⟩ := readBackOwner_eq_ok_iff.mp back
    obtain rfl := Except.ok.inj (read.symm.trans rereads.read)
    exact on
  · intro on
    exact ⟨page, readBackOwner_eq_ok_iff.mpr ⟨rereads.read, suits.covered, on⟩⟩

theorem Rereads.fails (nil : canonicalPublicationToken codec "" = false)
    (rereads : Rereads run node answer position saved page)
    (saves : node.SavedIn (run.2 node.token))
    (valid : validateCursorFrame codec node.frame = .ok ()) (member : position ∈ node.frame.owners)
    (changed : saved.changed page = true) (noticed : noticeable node.frame saved page = true)
    (before : run.1.calls call = .loaded caller binding node) :
    run.1.Fails (.readBack call answer self) := by
  rw [readBack_fails_iff before]
  rintro ⟨pages, ran⟩
  obtain ⟨on, covered, back⟩ :=
    readBack_eq_ok ran (validateCursorFrame_names valid) position member
  obtain ⟨read, -⟩ := readBackOwner_eq_ok_iff.mp back
  have same : pages position.name = page := Except.ok.inj (read.symm.trans rereads.read)
  have proper := validateCursorFrame_proper valid
  rw [same] at on covered
  have passed := (rereads.readBack_iff nil saves proper member
    (OwnerPosition.Saved.suits proper member on covered) changed).mp ⟨_, back⟩
  rw [noticed] at passed
  cases passed

end Noticed

end OufMcp.Cursor
