import OufMcp.Cursor.Served

/-!
# What a bookmark certifies

The finalizer puts a publication bookmark when a page leaves nothing.  Over
consistent owners both chains have then been read to their last page and all
their incidents are in the pages of the session.  The vector names the bookmarks
of the last pages and continues the bookmark that the session was resumed from,
which nothing but its disappearance can have changed since.
-/

namespace OufMcp.Cursor

open Ledger (UUID Time)
open Relational Transition Interaction

variable {codec : Codec} {binding : CursorBinding} {vector : PublicationVector}

/-! ## The bookmark a session continues -/

/-- The base of a frame is what its parent bookmark holds, as long as that is stored. -/
def Rooted (stored : StoreState codec) (frame : CursorFrame) : Prop :=
  ∀ token, frame.publicationParent = some token → ∃ base, frame.publicationBase = some base ∧
    token ∈ stored.issued ∧
      ∀ row, stored.store.bookmarks.get token = some row → row.metadata = base

theorem Rooted.step {stored after : StoreState codec} {event : StoreEvent} {frame : CursorFrame}
    (rooted : Rooted stored frame) (stepped : stored.step event = some after) :
    Rooted after frame := by
  intro token parent
  obtain ⟨base, based, issued, holds⟩ := rooted token parent
  obtain ⟨moves, -, drawn, fresh⟩ := StoreState.step_moves stepped
  refine ⟨base, based, drawn ▸ List.mem_append_right _ issued, fun row found => ?_⟩
  rcases moves.publishes with ⟨same, -⟩ | ⟨_, new, _, _, draws, -, -, -, -, published⟩
  · exact holds row (same ▸ found)
  · rcases published.get_bookmarks found with old | ⟨rfl, -⟩
    · exact holds row old
    · exact absurd issued (fresh token (by simp [draws]))

theorem Rooted.transacts {state : Composers codec} {stored : StoreState codec}
    {frame : CursorFrame} (rooted : Rooted state.stored frame)
    (transacts : state.Transacts stored) : Rooted stored frame := by
  rcases transacts with rfl | ⟨event, stepped⟩
  · exact rooted
  · exact rooted.step stepped

theorem Rooted.congr {stored : StoreState codec} {frame other : CursorFrame}
    (rooted : Rooted stored frame) (parent : other.publicationParent = frame.publicationParent)
    (base : other.publicationBase = frame.publicationBase) : Rooted stored other := by
  unfold Rooted
  rw [parent, base]
  exact rooted

namespace Composers

/-- Every frame of a run is rooted in the bookmark it continues. -/
structure Parented (state : Composers codec) : Prop where
  resuming : ∀ call caller frame, state.calls call = .resuming caller frame →
    Rooted state.stored frame
  created : ∀ node ∈ state.created, Rooted state.stored node.frame

variable {state next : Composers codec} {event : ComposerEvent}

theorem Parented.enters (parented : state.Parented) {phase : Phase codec}
    (enters : state.Enters event next phase)
    (here : ∀ caller frame, phase = .resuming caller frame → Rooted next.stored frame) :
    next.Parented := by
  have transacts := enters.stored.transacts
  constructor
  · refine fun call => forall_calls (P := fun phase => ∀ caller frame,
      phase = .resuming caller frame → Rooted next.stored frame) enters.calls here ?_ call
    exact fun call caller frame held =>
      (parented.resuming call caller frame held).transacts transacts
  · rw [enters.created]
    exact fun node member => (parented.created node member).transacts transacts

theorem Capturing.rooted {caller : Caller} {frame : CursorFrame} {answer : OwnerRead → OwnerReply}
    {self : Option SelfReply} {fresh : CreateInputs}
    (capturing : state.Capturing event caller frame answer self fresh)
    (parented : state.Parented) : Rooted state.stored frame := by
  cases capturing with
  | starts _ started =>
    have none : frame.publicationParent = none := by
      simp only [startFrame, bind_eq_ok] at started
      obtain ⟨_, -, started⟩ := started
      split at started
      all_goals
        simp only [bind_eq_ok, pure_eq_ok] at started
        obtain ⟨_, -, rfl⟩ := started
        rfl
    intro token parent
    cases none.symm.trans parent
  | resumes resuming => exact parented.resuming _ caller frame resuming

theorem Parented.transacts (parented : state.Parented) (transacts : state.Transacts next.stored)
    {call : Nat} {phase : Phase codec}
    (calls : next.calls = Function.update state.calls call phase)
    (none : ∀ caller frame, phase ≠ .resuming caller frame)
    (created : ∀ node ∈ next.created, node ∈ state.created ∨ Rooted next.stored node.frame) :
    next.Parented := by
  constructor
  · refine fun call => forall_calls (P := fun phase => ∀ caller frame,
      phase = .resuming caller frame → Rooted next.stored frame) calls ?_ ?_ call
    · exact fun caller frame same => absurd same (none caller frame)
    · exact fun call caller frame held =>
        (parented.resuming call caller frame held).transacts transacts
  · intro node member
    rcases created node member with old | rooted
    · exact (parented.created node old).transacts transacts
    · exact rooted

theorem Parented.step (parented : state.Parented) (kept : state.Kept)
    (filed : state.stored.Filed) (outcome : state.Outcome event next) : next.Parented := by
  -- A phase in which nothing is resumed.
  have plain {phase : Phase codec} (enters : state.Enters event next phase)
      (none : ∀ caller frame, phase ≠ .resuming caller frame) : next.Parented :=
    parented.enters enters fun caller frame same => absurd same (none caller frame)
  have transacts := outcome.stored
  cases outcome with
  | fails enters | loads _ _ _ enters | readsBack _ _ enters | composes _ _ enters
  | seals _ _ _ _ enters => exact plain enters fun _ _ impossible => by cases impossible
  | @resumes call caller arguments readAt binding _ limit retained _ loaded _ enters =>
    refine parented.enters enters ?_
    rintro _ _ ⟨⟩
    obtain ⟨row, found, -, -, same⟩ := Store.loadPublicationBookmark_eq_ok loaded
    have vector : retained.vector = row.metadata := congrArg PublicationBookmark.vector same
    have rooted : Rooted state.stored (blankFrame retained.vector.filters limit true
        (some retained.token) (some retained.vector)) := by
      rintro token ⟨⟩
      refine ⟨_, rfl, filed.stored _ row found, fun other present => ?_⟩
      rw [vector, Option.some.inj (present.symm.trans found)]
    exact rooted.transacts transacts
  | opens opens =>
    refine parented.transacts transacts opens.calls
      (fun _ _ impossible => by cases impossible) fun node member => ?_
    rw [opens.created] at member
    rcases List.mem_cons.mp member with rfl | old
    · obtain ⟨-, status, gateway, ingestion, frame, -⟩ := capture_eq_ok opens.ran
      refine .inr (((opens.capturing.rooted parented).transacts transacts).congr ?_ ?_)
      · rw [frame]
        rfl
      · rw [frame]
        rfl
    · exact .inl old
  | commits commits =>
    obtain ⟨member, names, sound, sealing⟩ := kept.ready commits.before
    have alike := compose_alike sound.composed names
    refine parented.transacts transacts commits.calls
      (fun _ _ impossible => by cases impossible) fun node there => ?_
    rw [commits.created] at there
    rcases List.mem_append.mp there with new | old
    · have sealed : Draft.Sealed _ _ (some node.frame) := mem_opened new ▸ sealing
      rw [sealed.continuation_eq.2]
      exact .inr (((parented.created _ member).transacts transacts).congr
        alike.publicationParent alike.publicationBase)
    · exact .inl old

theorem parented_of_reachable {guard : Composers codec → ComposerEvent → Prop}
    (reached : (composerSystem codec).Reachable guard state) : state.Parented := by
  refine reached.induction ?_ fun source event target before parented _ stepped => ?_
  · rintro _ ⟨now, rfl⟩
    constructor
    · rintro _ _ _ ⟨⟩
    · intro _ impossible
      cases impossible
  · exact parented.step (kept_of_reachable before)
      (StoreState.filed_of_reachable (reachable_stored before)) (step_outcome stepped)

end Composers

/-! ## The pages before a node -/

/-- The pages of a session that were committed before a node, from its first node on. -/
inductive Composers.LeadsTo (state : Composers codec) (start : CursorNode) :
    List (Delivery codec) → CursorNode → Prop where
  | refl (created : start ∈ state.created) (first : start.frame.pageNumber = 0) :
      LeadsTo state start [] start
  | tail {earlier : List (Delivery codec)} {delivery : Delivery codec} {node : CursorNode}
      (before : LeadsTo state start earlier delivery.node) (logged : delivery ∈ state.log)
      (created : node ∈ state.created) (next : delivery.next = some node.token) :
      LeadsTo state start (earlier ++ [delivery]) node

section Sessions

variable {state : Composers codec} {environment : Environment codec} {start node : CursorNode}
  {earlier : List (Delivery codec)}

theorem Composers.LeadsTo.begins (leads : state.LeadsTo start earlier node) :
    start ∈ state.created ∧ start.frame.pageNumber = 0 := by
  induction leads with
  | refl created first => exact ⟨created, first⟩
  | tail _ _ _ _ ih => exact ih

theorem Composers.LeadsTo.session (leads : state.LeadsTo start earlier node) (kept : state.Kept) :
    start.session = node.session ∧
      ∀ delivery ∈ earlier, delivery.node.session = node.session := by
  induction leads with
  | refl => exact ⟨rfl, by simp⟩
  | tail before logged created next ih =>
    have same := (kept.continues logged created next).2
    rw [same] at ih
    refine ⟨ih.1, fun delivery member => ?_⟩
    rcases List.mem_append.mp member with old | new
    · exact ih.2 delivery old
    · exact List.mem_singleton.mp new ▸ same

theorem Composers.Kept.leadsTo (kept : state.Kept) (created : node ∈ state.created) :
    ∃ start earlier, state.LeadsTo start earlier node := by
  induction number : node.frame.pageNumber generalizing node with
  | zero => exact ⟨node, [], .refl created number⟩
  | succ n ih =>
    obtain ⟨delivery, logged, next, -, -, follows⟩ := kept.predecessor created (by omega)
    obtain ⟨start, earlier, before⟩ := ih (kept.delivered delivery logged).2.1 (by omega)
    exact ⟨start, earlier ++ [delivery], before.tail logged created next⟩

theorem Composers.LeadsTo.behind (leads : state.LeadsTo start earlier node) (kept : state.Kept)
    (served : state.Served environment) {firsts : Producer → CursorOwnerPage codec}
    {status : Status × Bool} {coverage : Bool}
    (begun : Behind environment firsts status coverage [] start.frame) :
    Behind environment firsts status coverage (earlier.flatMap (·.page.items)) node.frame := by
  induction leads with
  | refl => exact begun
  | @tail earlier delivery node before logged created next ih =>
    obtain ⟨sound, there, -⟩ := kept.delivered delivery logged
    have continued := (kept.continues logged created next).1
    have after := ih.continuation sound.draft (served.delivered delivery logged)
      (kept.valid _ there) (continued ▸ sound.page)
    simpa using after

end Sessions

/-! ## The vector -/

/-- The finalizer publishes finished owners of a frame that passes its checks. -/
theorem finalVector_eq_ok {caller : Caller} {frame : CursorFrame}
    (made : finalVector codec caller frame = .ok (binding, vector)) :
    validateCursorFrame codec frame = .ok () ∧
      (∀ owner ∈ frame.owners, owner.done = true ∧ owner.publicationBookmark ≠ "") ∧
      vector = ⟨publicationVectorProfile, frame.filters, publishedOwners frame⟩ := by
  simp only [finalVector, bind_eq_ok, ensure_eq_ok, pure_eq_ok, Prod.mk.injEq] at made
  obtain ⟨_, valid, _, finished, _, -, -, rfl⟩ := made
  exact ⟨valid, finished, rfl⟩

theorem validatePublicationCapture_covered {frame : CursorFrame}
    (valid : validatePublicationCapture codec frame = .ok ())
    (covered : frame.publicationCoverage = true) :
    ((frame.publicationParent = none ∧ frame.publicationBase = none) ∨
      ∃ parent base, frame.publicationParent = some parent ∧
        frame.publicationBase = some base ∧ canonicalPublicationVector codec base = .ok base ∧
        base.filters = frame.filters) ∧
    ∀ owner ∈ frame.owners, owner.covered codec frame = true := by
  rw [validatePublicationCapture, if_neg (by simp [covered])] at valid
  obtain ⟨filters, canonical, valid⟩ := bind_eq_ok.mp valid
  obtain rfl := canonicalPublicationFilters_eq_ok canonical
  split at valid
  next parent base => exact ⟨.inl ⟨parent, base⟩, ensure_eq_ok.mp valid⟩
  next token base parent based =>
    simp only [bind_eq_ok, ensure_eq_ok] at valid
    obtain ⟨_, -, vector, vectorValid, _, same, owners⟩ := valid
    obtain ⟨rfl, -⟩ := canonicalPublicationVector_eq_ok vectorValid
    exact ⟨.inr ⟨token, _, parent, based, vectorValid,
      (canonicalPublicationFilters_eq_ok same).symm⟩,
      owners⟩
  next => cases valid

theorem OwnerPosition.covered_parent {frame : CursorFrame} {owner : OwnerPosition}
    (covered : owner.covered codec frame = true) (present : owner.publicationBookmark ≠ "") :
    owner.publicationParent = publicationOwnerParent frame owner.name := by
  rw [OwnerPosition.covered, if_pos present, Bool.and_eq_true, decide_eq_true_eq] at covered
  exact covered.2

/-- The vector of a frame whose owners are on these pages. -/
def certificate (frame : CursorFrame) (last : Producer → CursorOwnerPage codec) :
    PublicationVector where
  profile := publicationVectorProfile
  filters := frame.filters
  owners := [Producer.gateway, .ingestion].map fun name =>
    ⟨name, (last name).publicationBookmark, publicationOwnerParent frame name,
      (last name).snapshotRef, (last name).itemsDigest⟩

theorem publishedOwners_eq {frame : CursorFrame} (last : Producer → CursorOwnerPage codec)
    (names : frame.owners.map (·.name) = [.gateway, .ingestion])
    (on : ∀ owner ∈ frame.owners, owner.On (last owner.name))
    (parents : ∀ owner ∈ frame.owners,
      owner.publicationParent = publicationOwnerParent frame owner.name) :
    publishedOwners frame = (certificate frame last).owners := by
  have published (owner : OwnerPosition) (member : owner ∈ frame.owners) :
      owner.published = ⟨owner.name, (last owner.name).publicationBookmark,
        publicationOwnerParent frame owner.name, (last owner.name).snapshotRef,
        (last owner.name).itemsDigest⟩ := by
    have here := on owner member
    rw [OwnerPosition.published, here.bookmark, parents owner member, here.snapshotRef,
      here.ownerDigest]
  obtain ⟨gateway, ingestion, owners⟩ :
      ∃ gateway ingestion, frame.owners = [gateway, ingestion] := by
    have two : frame.owners.length = 2 := by simpa using congrArg List.length names
    exact List.length_eq_two.mp two
  rw [owners] at names published
  have first : gateway.name = .gateway := (List.cons.inj names).1
  have second : ingestion.name = .ingestion := (List.cons.inj (List.cons.inj names).2).1
  have one := published gateway (by simp)
  have two := published ingestion (by simp)
  rw [first] at one
  rw [second] at two
  simp [publishedOwners, owners, first, second, one, two, certificate]

theorem publicationOwnerParent_base {frame : CursorFrame} {base : PublicationVector}
    (based : frame.publicationBase = some base)
    (names : base.owners.map (·.name) = [.gateway, .ingestion]) :
    [Producer.gateway, .ingestion].map (publicationOwnerParent frame) =
      base.owners.map (·.bookmark) := by
  obtain ⟨gateway, ingestion, owners⟩ :
      ∃ gateway ingestion, base.owners = [gateway, ingestion] := by
    have two : base.owners.length = 2 := by simpa using congrArg List.length names
    exact List.length_eq_two.mp two
  rw [owners] at names ⊢
  have first : gateway.name = .gateway := (List.cons.inj names).1
  have second : ingestion.name = .ingestion := (List.cons.inj (List.cons.inj names).2).1
  simp [publicationOwnerParent, based, owners, first, second]

/-- The parent test refuses a certificate only when the parent cannot be loaded. -/
theorem publicationParent_certificate {stored : StoreState codec} {frame : CursorFrame}
    {last : Producer → CursorOwnerPage codec} {now : Time} {error : CursorError}
    (rooted : Rooted stored frame) (valid : validatePublicationCapture codec frame = .ok ())
    (covered : frame.publicationCoverage = true)
    (canonical : canonicalPublicationVector codec (certificate frame last) =
      .ok (certificate frame last))
    (refused : stored.store.publicationParent now binding (certificate frame last)
      frame.publicationParent = .error error) :
    ∃ token, frame.publicationParent = some token ∧
      stored.store.loadPublicationBookmark now token binding = .error error := by
  rcases (validatePublicationCapture_covered valid covered).1 with
    ⟨parent, based⟩ | ⟨token, base, parent, based, baseCanonical, filters⟩
  · rw [parent, Store.publicationParent] at refused
    have blank : ∀ position ∈ (certificate frame last).owners, position.parentBookmark = "" := by
      simp [certificate, publicationOwnerParent, based]
    rw [ensure, if_pos blank] at refused
    cases refused
  · refine ⟨token, parent, ?_⟩
    rw [parent, Store.publicationParent] at refused
    cases loaded : stored.store.loadPublicationBookmark now token binding with
    | error other =>
      rw [loaded] at refused
      cases refused
      rfl
    | ok old =>
      obtain ⟨row, found, -, -, same⟩ := Store.loadPublicationBookmark_eq_ok loaded
      obtain ⟨_, also, -, holds⟩ := rooted token parent
      obtain rfl := Option.some.inj (based.symm.trans also)
      have vector : old.vector = base := by
        rw [same]
        exact holds row found
      have lineage : publicationVectorLineage codec old.vector (certificate frame last) = true := by
        rw [vector, publicationVectorLineage, baseCanonical, canonical]
        refine decide_eq_true ⟨filters, ?_⟩
        rw [← publicationOwnerParent_base based (canonicalPublicationVector_eq_ok baseCanonical).2]
        rfl
      rw [loaded] at refused
      change (ensure _ _ >>= _) = _ at refused
      rw [ensure, if_pos lineage] at refused
      cases refused

theorem CursorFrame.Alike.certificate {frame other : CursorFrame} (alike : frame.Alike other)
    (last : Producer → CursorOwnerPage codec) :
    Cursor.certificate frame last = Cursor.certificate other last := by
  have parents : publicationOwnerParent frame = publicationOwnerParent other := by
    funext name
    rw [publicationOwnerParent, publicationOwnerParent, alike.publicationBase]
  rw [Cursor.certificate, Cursor.certificate, alike.filters, parents]

/-! ## Certified chains -/

theorem final_eq_true {composed : Composition} (final : composed.final = true) :
    composed.frame.publicationCoverage = true ∧ composed.more = false := by
  simp only [Composition.final, Bool.and_eq_true, Bool.not_eq_true'] at final
  exact ⟨final.1.1, final.1.2⟩

/-- Owners that answer a cursor consistently, and any status of MCP itself. -/
def Service.environment (serve : Service codec) : Environment codec :=
  ⟨serve, fun _ _ => True, fun _ => True⟩

/-- A draft that the finalizer runs on completes the chains of its session. -/
theorem Composers.Served.certified {state : Composers codec} {environment : Environment codec}
    (served : state.Served environment) (kept : state.Kept) {call : Nat} {draft : Draft codec}
    (before : state.calls call = .composed draft) (final : draft.composed.final = true)
    (made : finalVector codec draft.caller draft.composed.frame = .ok (binding, vector)) :
    ∃ (start : CursorNode) (earlier : List (Delivery codec)) (blank : CursorFrame)
      (status : Status × Bool) (firsts last : Producer → CursorOwnerPage codec)
      (pages : Producer → List (CursorOwnerPage codec)),
      state.LeadsTo start earlier draft.node ∧
      (∀ delivery ∈ earlier, delivery.node.session = draft.node.session) ∧
      start.frame = blank.captured status (firsts .gateway) (firsts .ingestion) ∧
      (∀ name, Complete (environment.serve name true) (firsts name) (pages name) ∧
        (pages name).getLast? = some (last name)) ∧
      (earlier.flatMap (·.page.items) ++ draft.composed.items).Perm
        ((pages .gateway).flatMap (·.items) ++ (pages .ingestion).flatMap (·.items) ++
          selfItems status) ∧
      vector = certificate draft.node.frame last := by
  have phase := kept.phases call
  have held := served.phases call
  rw [before] at phase held
  have created : draft.node ∈ state.created := kept.held call _ (before ▸ rfl)
  obtain ⟨covered, used⟩ := final_eq_true final
  obtain ⟨valid, finished, rfl⟩ := finalVector_eq_ok made
  have alike := compose_alike phase.composed (validateCursorFrame_names (kept.valid _ created))
  obtain ⟨start, earlier, leads⟩ := kept.leadsTo created
  obtain ⟨there, first⟩ := leads.begins
  obtain ⟨blank, status, firsts, captured⟩ := served.captured start there first
  have behind := leads.behind kept served captured.behind
  obtain ⟨⟨tracks, accounts⟩, reported, coverage⟩ := behind.composed phase held
  obtain ⟨complete, placed⟩ := accounts.complete ((compose_more phase.composed).trans used)
  rw [covered] at complete
  rw [reported] at placed
  refine ⟨start, earlier, blank, status, firsts, fun name => (tracks name).current,
    fun name => (tracks name).pages, leads, (leads.session kept).2, captured.made,
    fun name => ⟨complete name, List.getLast?_concat⟩, placed, ?_⟩
  have parents (owner : OwnerPosition) (member : owner ∈ draft.composed.frame.owners) :=
    OwnerPosition.covered_parent
      ((validatePublicationCapture_covered (validateCursorFrame_spec valid).2.2 covered).2 owner
        member) (finished owner member).2
  rw [← alike.certificate, publishedOwners_eq (fun name => (tracks name).current) accounts.names
    (fun owner member => (accounts.holds owner member).on) parents]
  rfl

/-- A response carries a bookmark exactly when it ends a publication chain. -/
theorem Composers.Kept.bookmark_iff {state : Composers codec} (kept : state.Kept)
    {delivery : Delivery codec} (logged : delivery ∈ state.log) :
    delivery.page.publicationBookmark.isSome = true ↔
      delivery.page.bookmarkProfile.isSome = true ∧ delivery.next = none := by
  obtain ⟨sound, created, -⟩ := kept.delivered delivery logged
  obtain ⟨⟨bookmark, certified, page⟩, -⟩ := sound.page.spec
  have names := validateCursorFrame_names (kept.valid _ created)
  have pending := compose_pending sound.draft.composed names
  rw [kept.next_eq_none logged, page]
  change bookmark.isSome = true ↔ (if delivery.composed.frame.publicationCoverage = true then
    some publicationVectorProfile else none).isSome = true ∧ _
  rw [certified, Composition.final]
  cases covered : delivery.composed.frame.publicationCoverage with
  | false => simp
  | true =>
    cases more : delivery.composed.more with
    | true => simp
    | false =>
      have complete : delivery.composed.scanPending = false := by
        rw [← Bool.not_eq_true]
        intro scanning
        cases more.symm.trans (pending scanning)
      simp [complete]

/-- When the finalizer puts a bookmark, both owners have been read to the end of their
chains and every incident of them is in this response or in an earlier page of the
session, once.  The vector names the bookmarks of the last pages and the parents of the
base, and is refused for its parent only when that cannot be loaded. -/
theorem bookmark_certifies_chain (serve : Service codec) {state : Composers codec}
    (reached : (composerSystem codec).Reachable
      (fun _ event => serve.environment.Allows event) state) :
    (∀ call draft binding vector, state.calls call = .composed draft →
      draft.composed.final = true →
      finalVector codec draft.caller draft.composed.frame = .ok (binding, vector) →
      (∃ (start : CursorNode) (earlier : List (Delivery codec)) (blank : CursorFrame)
        (status : Status × Bool) (firsts last : Producer → CursorOwnerPage codec)
        (pages : Producer → List (CursorOwnerPage codec)),
        state.LeadsTo start earlier draft.node ∧
        (∀ delivery ∈ earlier, delivery.node.session = draft.node.session) ∧
        start.frame = blank.captured status (firsts .gateway) (firsts .ingestion) ∧
        (∀ name, Complete (serve name true) (firsts name) (pages name) ∧
          (pages name).getLast? = some (last name)) ∧
        (earlier.flatMap (·.page.items) ++ draft.composed.items).Perm
          ((pages .gateway).flatMap (·.items) ++ (pages .ingestion).flatMap (·.items) ++
            selfItems status) ∧
        vector = certificate draft.node.frame last) ∧
      ∀ now normalized error, canonicalPublicationVector codec vector = .ok normalized →
        state.stored.store.publicationParent now binding normalized
          draft.composed.frame.publicationParent = .error error →
        ∃ token, draft.composed.frame.publicationParent = some token ∧
          state.stored.store.loadPublicationBookmark now token binding = .error error) ∧
    ∀ call body, (state.calls call).response? = some body →
      (body.1.publicationBookmark.isSome = true ↔
        body.1.bookmarkProfile.isSome = true ∧ body.2 = none) := by
  have kept := Composers.kept_of_reachable reached
  have served := Composers.served_of_reachable reached
  refine ⟨fun call draft binding vector before final made => ?_, fun call body returned => ?_⟩
  · have certified := served.certified kept before final made
    refine ⟨certified, fun now normalized error canonical refused => ?_⟩
    obtain ⟨_, _, _, _, _, last, _, -, -, -, -, -, rfl⟩ := certified
    obtain ⟨rfl, -⟩ := canonicalPublicationVector_eq_ok canonical
    obtain ⟨valid, -, -⟩ := finalVector_eq_ok made
    have created : draft.node ∈ state.created := kept.held call _ (before ▸ rfl)
    have phase := kept.phases call
    rw [before] at phase
    have alike := compose_alike phase.composed (validateCursorFrame_names (kept.valid _ created))
    have rooted := ((Composers.parented_of_reachable reached).created _ created).congr
      alike.publicationParent alike.publicationBase
    rw [← alike.certificate] at canonical refused
    exact publicationParent_certificate rooted (validateCursorFrame_spec valid).2.2
      (final_eq_true final).1 canonical refused
  · obtain ⟨delivery, logged, rfl⟩ := Composers.response_delivered reached returned
    exact kept.bookmark_iff logged

/-! ## A sample publication -/

/-- The only page of an owner: of its first snapshot, or since that one was bookmarked. -/
def publicationBody (name : Producer) (resumed : Bool) : OwnerBody :=
  { sampleBody name with
    cursor := if resumed then sampleToken 3 else sampleToken 1
    bookmarkProfile := "ouf.owner-publication-bookmark.v1"
    publicationBookmark := if resumed then sampleToken 4 else sampleToken 2
    parentBookmark := if resumed then sampleToken 2 else ""
    noPublicationProgress := some false }

def OwnerQuery.resumes : OwnerQuery → Bool
  | .resumeFrom _ => true
  | _ => false

def publicationAnswer (read : OwnerRead) : OwnerReply :=
  ⟨some (publicationBody read.producer read.query.resumes), 0⟩

def publicationPage (name : Producer) (resumed : Bool) : CursorOwnerPage sampleCodec :=
  match decodeCursorOwnerPage sampleCodec 0 (publicationBody name resumed) name with
  | .ok page => page
  | .error _ => .zero sampleCodec

def publicationService : Service sampleCodec := fun name _ token =>
  some (publicationPage name (decide (token = sampleToken 3)))

theorem publicationService_serves : Serves publicationService publicationAnswer := by
  intro read body page replied decoded
  cases replied
  have same : page = publicationPage read.producer read.query.resumes := by
    unfold publicationPage
    change decodeCursorOwnerPage sampleCodec 0 (publicationBody read.producer _) read.producer = _
      at decoded
    rw [decoded]
  have cursor : ∀ name resumed,
      decide ((publicationPage name resumed).cursor = sampleToken 3) = resumed := by
    intro name resumed
    cases name <;> cases resumed <;> decide +kernel
  rw [same, publicationService, cursor]

/-- A publication chain that is bookmarked, and one that resumes from the bookmark. -/
def publishedThenResumed : List ComposerEvent :=
  [.start 0 sampleCaller true ∅ publicationAnswer sampleSelf ⟨true, none, 0, 0, 1, 2⟩,
    .compose 0 publicationAnswer, .finalize 0 true (sampleClock 0) none 3, .commit 0 true 0 4,
    .resume 1 sampleCaller ∅ 3 0,
    .recapture 1 publicationAnswer sampleSelf ⟨true, none, 0, 0, 5, 6⟩,
    .compose 1 publicationAnswer]

theorem publicationService_allows {event : ComposerEvent} (member : event ∈ publishedThenResumed) :
    publicationService.environment.Allows event := by
  have brings : ∀ event ∈ publishedThenResumed, ∀ answer, event.answer = some answer →
      answer = publicationAnswer := by
    simp [publishedThenResumed, ComposerEvent.answer]
  refine ⟨fun answer brought => ?_, fun _ _ _ _ _ _ _ _ => trivial, fun _ _ _ _ => trivial⟩
  obtain rfl := brings event member answer brought
  exact publicationService_serves

def Phase.puts : Phase codec → Option (CursorBinding × PublicationVector)
  | .composed draft =>
    if draft.composed.final then
      (finalVector codec draft.caller draft.composed.frame).toOption
    else none
  | _ => none

theorem Phase.puts_eq_some {phase : Phase codec} (found : phase.puts = some (binding, vector)) :
    ∃ draft, phase = .composed draft ∧ draft.composed.final = true ∧
      finalVector codec draft.caller draft.composed.frame = .ok (binding, vector) := by
  unfold puts at found
  split at found
  next draft =>
    split at found
    next final =>
      refine ⟨draft, rfl, final, ?_⟩
      cases made : finalVector codec draft.caller draft.composed.frame with
      | error error =>
        rw [made] at found
        cases found
      | ok value =>
        rw [made] at found
        cases found
        rfl
    next => cases found
  next => cases found

theorem bookmark_certifies_chain_resumed :
    ∃ state draft vector, replayComposers publishedThenResumed = some state ∧
      state.calls 1 = .composed draft ∧
      vector.owners.map (·.parentBookmark) = [sampleToken 2, sampleToken 2] ∧
      ∃ last : Producer → CursorOwnerPage sampleCodec,
        vector = certificate draft.node.frame last := by
  obtain ⟨state, replayed, reached, checked⟩ := replayComposers_reachable
    (fun event member _ => publicationService_allows member)
    (fun state => decide ((state.calls 1).puts.map (fun put : CursorBinding × PublicationVector =>
      put.2.owners.map (·.parentBookmark)) = some [sampleToken 2, sampleToken 2]))
      (by decide +kernel)
  obtain ⟨⟨binding, vector⟩, found, parents⟩ :=
    Option.map_eq_some_iff.mp (of_decide_eq_true checked)
  obtain ⟨draft, phase, final, made⟩ := Phase.puts_eq_some found
  obtain ⟨⟨_, _, _, _, _, last, _, -, -, -, -, -, same⟩, -⟩ :=
    (bookmark_certifies_chain publicationService reached).1 1 draft binding vector phase final made
  exact ⟨state, draft, vector, replayed, phase, parents, last, same⟩

end OufMcp.Cursor
