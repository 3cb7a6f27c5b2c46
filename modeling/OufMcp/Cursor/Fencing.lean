import OufMcp.Cursor.Certificate

/-!
# The composer and the checks on its frames

The store refuses a page whose frame fails the checks of a frame or does not
continue the frame of its node, and the finalizer refuses owners that are not
finished.  The composer and these checks are written apart; here every frame the
merge leaves is shown to pass them.  What is followed through the merge is one
owner: its position, the page at hand, and the position of the node it started
from.
-/

namespace OufMcp.Cursor

open Ledger (UUID Time hexDigest)
open Relational Transition Interaction

variable {codec : Codec}

/-! ## Frames -/

/-- The publication fields of a position are those of the mode of its frame. -/
def OwnerPosition.Fits (codec : Codec) (frame : CursorFrame) (owner : OwnerPosition) : Prop :=
  if frame.publicationCoverage = true then owner.covered codec frame = true
  else owner.publicationBookmark = "" ∧ owner.publicationParent = ""

/-- The capture checks look at the scope of a frame and at each owner alone. -/
theorem validatePublicationCapture_eq_ok {frame : CursorFrame} :
    validatePublicationCapture codec frame = .ok () ↔
      validatePublicationCapture codec frame.scope = .ok () ∧
        ∀ owner ∈ frame.owners, owner.Fits codec frame := by
  have base : validatePublicationCapture codec frame.scope =
      validatePublicationCapture codec { frame with owners := [] } := rfl
  rw [base]
  unfold OwnerPosition.Fits
  cases coverage : frame.publicationCoverage with
  | false => simp [validatePublicationCapture, coverage, bind_eq_ok, ensure_eq_ok]
  | true =>
    simp only [validatePublicationCapture, coverage, bind_eq_ok, Bool.true_eq_false, if_false,
      if_true]
    constructor
    · rintro ⟨filters, canonical, rest⟩
      split at rest
      next => exact ⟨⟨filters, canonical, by simp [ensure]⟩, ensure_eq_ok.mp rest⟩
      next =>
        simp only [bind_eq_ok, ensure_eq_ok] at rest
        obtain ⟨_, present, vector, valid, _, same, owners⟩ := rest
        refine ⟨⟨filters, canonical, ?_⟩, owners⟩
        simp only [bind_eq_ok, ensure_eq_ok]
        exact ⟨(), present, vector, valid, (), same, by simp⟩
      next => cases rest
    · rintro ⟨⟨filters, canonical, rest⟩, owners⟩
      refine ⟨filters, canonical, ?_⟩
      split at rest
      next => exact ensure_eq_ok.mpr owners
      next =>
        simp only [bind_eq_ok, ensure_eq_ok] at rest ⊢
        obtain ⟨_, present, vector, valid, _, same, -⟩ := rest
        exact ⟨(), present, vector, valid, (), same, owners⟩
      next => cases rest

/-- What is checked of a frame besides its size. -/
structure CursorFrame.Proper (codec : Codec) (frame : CursorFrame) : Prop where
  profile : frame.profile = cursorProfile
  limit : 1 ≤ frame.pageLimit ∧ frame.pageLimit ≤ 100
  number : frame.pageNumber ≤ 200
  two : frame.owners.length = 2
  query : (operationalQuery codec frame.filters true).isSome = true
  capture : validatePublicationCapture codec frame.scope = .ok ()
  fits : ∀ owner ∈ frame.owners, owner.Fits codec frame
  names : (frame.owners.map (·.name)).Nodup
  positions : ∀ owner ∈ frame.owners, owner.valid codec = true

theorem CursorFrame.Proper.validate {frame : CursorFrame} (proper : frame.Proper codec) :
    validateCursorFrame codec frame = ensure (codec.frameSize frame ≤ 16 * 1024) .capacity := by
  have capture := validatePublicationCapture_eq_ok.mpr ⟨proper.capture, proper.fits⟩
  have head : frame.profile = cursorProfile ∧ 1 ≤ frame.pageLimit ∧ frame.pageLimit ≤ 100 ∧
      frame.pageNumber ≤ 200 ∧ frame.owners.length = 2 :=
    ⟨proper.profile, proper.limit.1, proper.limit.2, proper.number, proper.two⟩
  have owners := And.intro proper.names proper.positions
  rw [validateCursorFrame, ensure, if_pos head, ensure, if_pos proper.query, capture, ensure,
    if_pos owners]
  rfl

theorem validateCursorFrame_proper {frame : CursorFrame}
    (valid : validateCursorFrame codec frame = .ok ()) : frame.Proper codec := by
  simp only [validateCursorFrame, bind_eq_ok, ensure_eq_ok] at valid
  obtain ⟨_, ⟨profile, low, high, number, two⟩, _, query, _, capture, _, ⟨names, positions⟩, -⟩ :=
    valid
  obtain ⟨base, fits⟩ := validatePublicationCapture_eq_ok.mp capture
  exact ⟨profile, ⟨low, high⟩, number, two, query, base, fits, names, positions⟩

/-! ## Pages -/

/-- What decoding says about the fields of a page that a position keeps. -/
structure CursorOwnerPage.Proper (page : CursorOwnerPage codec) : Prop where
  size : page.items.length ≤ 100
  digest : hexDigest page.itemsDigest = true
  cursor : validToken codec page.cursor = true
  snapshotRef : validToken codec page.snapshotRef = true

theorem length_of_mapM_ok {α β : Type} {f : α → Except CursorError β} {entries : List α}
    {results : List β} (done : entries.mapM f = .ok results) : results.length = entries.length := by
  induction entries generalizing results with
  | nil =>
    rw [List.mapM_nil, pure_eq_ok] at done
    rw [← done, List.length_nil, List.length_nil]
  | cons entry rest ih =>
    simp only [List.mapM_cons, bind_eq_ok, pure_eq_ok] at done
    obtain ⟨result, -, others, mapped, rfl⟩ := done
    rw [List.length_cons, List.length_cons, ih mapped]

theorem decodeCursorOwnerPage_proper {now : Time} {body : OwnerBody} {name : Producer}
    {page : CursorOwnerPage codec}
    (accepted : decodeCursorOwnerPage codec now body name = .ok page) : page.Proper := by
  simp only [decodeCursorOwnerPage, bind_eq_ok, ensure_eq_ok, demand_eq_ok] at accepted
  obtain ⟨_, -, _, -, entries, -, _, ⟨-, -, few, -, -, digest, -⟩, _, ⟨cursor, snapshotRef⟩, _, -,
    _, -, items, decoded, _, -, rest⟩ := accepted
  split at rest
  next =>
    cases rest
    exact ⟨(length_of_mapM_ok decoded).trans_le few, digest, cursor, snapshotRef⟩
  next => cases rest

/-- A page passes the publication tests, or has no publication fields where they are not made. -/
structure CursorOwnerPage.Suits (frame : CursorFrame) (name : Producer)
    (page : CursorOwnerPage codec) : Prop where
  covered : checkCoverage frame name page = .ok ()
  plain : frame.publicationCoverage = false →
    page.publicationBookmark = "" ∧ page.parentBookmark = ""

theorem CursorOwnerPage.Suits.continued {frame : CursorFrame} {name : Producer}
    {page : CursorOwnerPage codec} (suits : page.Suits frame name) (more : page.nextCursor ≠ "") :
    page.publicationBookmark = "" ∧ page.parentBookmark = "" := by
  cases coverage : frame.publicationCoverage with
  | false => exact suits.plain coverage
  | true =>
    have covered := suits.covered
    rw [checkCoverage, if_pos coverage, validatePublicationPage] at covered
    simp only [bind_eq_ok, ensure_eq_ok, if_neg more] at covered
    obtain ⟨_, -, bookmark, parent, -⟩ := covered
    exact ⟨bookmark, parent⟩

theorem CursorOwnerPage.Suits.last {frame : CursorFrame} {name : Producer}
    {page : CursorOwnerPage codec} (suits : page.Suits frame name)
    (coverage : frame.publicationCoverage = true) (last : page.nextCursor = "") :
    canonicalPublicationToken codec page.publicationBookmark = true ∧
      page.parentBookmark = publicationOwnerParent frame name := by
  have covered := suits.covered
  rw [checkCoverage, if_pos coverage, validatePublicationPage] at covered
  simp only [bind_eq_ok, ensure_eq_ok, if_pos last] at covered
  obtain ⟨_, -, _, bookmark, -⟩ := covered
  exact bookmark

/-- Replies carry no publication fields. -/
def Plain (answer : OwnerRead → OwnerReply) : Prop :=
  ∀ read body, (answer read).body = some body →
    body.publicationBookmark = "" ∧ body.parentBookmark = ""

theorem callProducer_eq_ok {answer : OwnerRead → OwnerReply} {scopeSource : String}
    {query : OwnerQuery} {producer : Producer} {page : CursorOwnerPage codec}
    (ran : (callProducer codec scopeSource query producer).run answer = .ok page) :
    ∃ read body now, (answer read).body = some body ∧
      decodeCursorOwnerPage codec now body producer = .ok page := by
  simp only [callProducer, Dialogue.run_bind_eq_ok] at ran
  obtain ⟨read, -, reply, replied, body, found, decoded⟩ := ran
  cases replied
  exact ⟨read, body, _, demand_eq_ok.mp found, decoded⟩

/-! ## One owner through a merge -/

/-- What `current` keeps of `previous`, at most `turned` pages later. -/
structure OwnerPosition.Continued (turned : Nat) (previous current : OwnerPosition) : Prop where
  snapshotRef : current.snapshotRef = previous.snapshotRef
  done : previous.done = true → current.done = true
  bookmark : previous.publicationBookmark = "" ∨
    (previous.publicationBookmark = current.publicationBookmark ∧
      previous.publicationParent = current.publicationParent)
  lower : previous.pageIndex ≤ current.pageIndex
  upper : current.pageIndex ≤ previous.pageIndex + turned
  still : current.pageIndex = previous.pageIndex →
    current.cursor = previous.cursor ∧ current.itemsDigest = previous.itemsDigest ∧
      current.ownerDigest = previous.ownerDigest ∧ previous.offset ≤ current.offset

theorem OwnerPosition.Continued.refl (position : OwnerPosition) : position.Continued 0 position :=
  ⟨rfl, id, .inr ⟨rfl, rfl⟩, le_rfl, le_rfl, fun _ => ⟨rfl, rfl, rfl, le_rfl⟩⟩

theorem OwnerPosition.Continued.continues {turned : Nat} {previous current : OwnerPosition}
    (continued : previous.Continued turned current) (few : turned ≤ 1) :
    previous.continues current = true := by
  have upper : current.pageIndex ≤ previous.pageIndex + 1 := continued.upper.trans (by omega)
  have done : previous.done = false ∨ current.done = true := by
    cases finished : previous.done with
    | false => exact .inl rfl
    | true => exact .inr (continued.done finished)
  have still := (em (current.pageIndex = previous.pageIndex)).symm.imp_right continued.still
  simp [OwnerPosition.continues, continued.snapshotRef, done, continued.bookmark,
    continued.lower, upper, still]

/-- An owner in the middle of a merge that started from the frame `origin`. -/
structure OwnerPosition.Sound (origin : CursorFrame) (turned : Nat) (page : CursorOwnerPage codec)
    (position : OwnerPosition) : Prop where
  on : position.On page
  proper : page.Proper
  suits : page.Suits origin position.name
  fits : position.Fits codec origin
  index : position.pageIndex ≤ 200
  source : ∃ previous ∈ origin.owners, previous.name = position.name ∧
    previous.Continued turned position

theorem OwnerPosition.fits_of_on (nil : canonicalPublicationToken codec "" = false)
    {origin : CursorFrame} {page : CursorOwnerPage codec} {position : OwnerPosition}
    (on : position.On page) (suits : page.Suits origin position.name)
    (open' : page.nextCursor ≠ "" → position.done = false) : position.Fits codec origin := by
  unfold Fits
  cases coverage : origin.publicationCoverage with
  | false =>
    rw [if_neg Bool.false_ne_true, on.bookmark, on.parent]
    exact suits.plain coverage
  | true =>
    rw [if_pos rfl, covered, on.bookmark, on.parent]
    by_cases last : page.nextCursor = ""
    · obtain ⟨canonical, parent⟩ := suits.last coverage last
      have present : page.publicationBookmark ≠ "" := by
        intro absent
        rw [absent, nil] at canonical
        cases canonical
      simp [present, canonical, parent]
    · obtain ⟨bookmark, parent⟩ := suits.continued last
      simp [bookmark, parent, open' last]

namespace OwnerPosition.Sound

variable {origin : CursorFrame} {turned : Nat} {page next : CursorOwnerPage codec}
  {position : OwnerPosition}

theorem valid (sound : position.Sound origin turned page) : position.valid codec = true := by
  have offset : position.offset ≤ 100 := sound.on.offset.trans sound.proper.size
  simp [OwnerPosition.valid, offset, sound.index, sound.on.ownerDigest, sound.on.cursor,
    sound.on.snapshotRef, sound.proper.digest, sound.proper.cursor, sound.proper.snapshotRef]

theorem finish (nil : canonicalPublicationToken codec "" = false)
    (sound : position.Sound origin turned page) (last : page.nextCursor = "") :
    ({ position with done := true } : OwnerPosition).Sound origin turned page := by
  have on : ({ position with done := true } : OwnerPosition).On page :=
    ⟨sound.on.cursor, sound.on.snapshotRef, sound.on.items, sound.on.ownerDigest, sound.on.offset,
      sound.on.bookmark, sound.on.parent⟩
  obtain ⟨previous, member, name, continued⟩ := sound.source
  refine ⟨on, sound.proper, sound.suits, ?_, sound.index, previous, member, name,
    { continued with done := fun _ => rfl }⟩
  exact fits_of_on nil on sound.suits fun more => absurd last more

theorem settle (nil : canonicalPublicationToken codec "" = false)
    (sound : position.Sound origin turned page) :
    (position.settle page).Sound origin turned page := by
  unfold OwnerPosition.settle
  split
  next last => exact sound.finish nil last.2
  next => exact sound

theorem consume {pages : Producer → CursorOwnerPage codec} {item : Item}
    (sound : position.Sound origin turned (pages position.name))
    (head : position.head? pages = some item) :
    position.consume.Sound origin turned (pages position.name) := by
  obtain ⟨previous, member, name, continued⟩ := sound.source
  refine ⟨sound.on.consume head, sound.proper, sound.suits, sound.fits, sound.index, previous,
    member, name, { continued with still := fun same => ?_ }⟩
  obtain ⟨cursor, items, owner, offset⟩ := continued.still same
  exact ⟨cursor, items, owner, offset.trans (Nat.le_succ _)⟩

theorem later (sound : position.Sound origin turned page) :
    position.Sound origin (turned + 1) page := by
  obtain ⟨previous, member, name, continued⟩ := sound.source
  exact ⟨sound.on, sound.proper, sound.suits, sound.fits, sound.index, previous, member, name,
    { continued with upper := continued.upper.trans (Nat.le_succ _) }⟩

theorem refilled (nil : canonicalPublicationToken codec "" = false)
    (sound : position.Sound origin turned page) (pending : position.done = false)
    (more : page.nextCursor ≠ "") (room : position.pageIndex < 200) (proper : next.Proper)
    (suits : next.Suits origin position.name) (same : next.snapshotRef = position.snapshotRef) :
    (position.refilled next).Sound origin (turned + 1) next := by
  have on := position.refilled_on next
  obtain ⟨previous, member, name, continued⟩ := sound.source
  refine ⟨on, proper, suits, ?_, Nat.succ_le_of_lt room, previous, member, name, ?_⟩
  · refine fits_of_on nil on suits fun left => ?_
    change next.items.isEmpty = false
    rw [List.isEmpty_eq_false_iff]
    exact List.ne_nil_of_length_pos (next.full left ▸ by decide)
  · -- The page is turned, so what the new one has to keep is the snapshot alone.
    have bare : previous.publicationBookmark = "" := by
      rcases continued.bookmark with absent | ⟨kept, -⟩
      · exact absent
      · rw [kept, sound.on.bookmark, (sound.suits.continued more).1]
    refine ⟨same.trans continued.snapshotRef, fun finished => ?_, .inl bare,
      continued.lower.trans (Nat.le_succ _), Nat.succ_le_succ continued.upper, fun still => ?_⟩
    · cases (continued.done finished).symm.trans pending
    · exact absurd still (Nat.lt_succ_of_le continued.lower).ne'

end OwnerPosition.Sound

/-! ## A whole merge -/

/-- A merge that started from the frame `origin` after its two reads. -/
structure Progress.Sound (origin : CursorFrame) (progress : Progress codec) : Prop where
  scope : progress.frame.scope = origin.scope
  names : progress.frame.owners.map (·.name) = origin.owners.map (·.name)
  reads : ∃ turned, progress.calls = 2 + turned ∧ turned ≤ 1 ∧
    ∀ position ∈ progress.frame.owners,
      position.Sound origin turned (progress.pages position.name)
  self : origin.selfConsumed = true → progress.frame.selfConsumed = true

theorem refill_sound {origin : CursorFrame} {answer : OwnerRead → OwnerReply}
    (plain : origin.publicationCoverage = false → Plain answer) {frame : CursorFrame}
    (scope : frame.scope = origin.scope) {position : OwnerPosition}
    {page next : CursorOwnerPage codec}
    (read : (refill frame position page).run answer = .ok next) :
    position.pageIndex < 200 ∧ next.Proper ∧ next.Suits origin position.name ∧
      next.snapshotRef = position.snapshotRef := by
  obtain ⟨ran, checked⟩ := refill_eq_ok read
  obtain ⟨covered, same, -⟩ := checkRefill_eq_ok checked
  have room : position.pageIndex < 200 := by
    simp only [refill, Dialogue.run_bind_eq_ok] at read
    obtain ⟨_, room, -⟩ := read
    exact ensure_eq_ok.mp room
  simp only [readPage, Dialogue.run_bind_eq_ok] at ran
  obtain ⟨_, -, called⟩ := ran
  obtain ⟨asked, body, now, found, decoded⟩ := callProducer_eq_ok called
  refine ⟨room, decodeCursorOwnerPage_proper decoded, ⟨?_, fun uncovered => ?_⟩, same⟩
  · have alike : checkCoverage frame.scope position.name next =
        checkCoverage origin.scope position.name next := by rw [scope]
    exact alike.symm.trans covered
  · obtain ⟨-, -, envelope, -⟩ := decodeCursorOwnerPage_eq_ok decoded
    rw [envelope]
    exact plain uncovered asked body found

theorem Progress.Sound.step (nil : canonicalPublicationToken codec "" = false)
    {origin : CursorFrame} {answer : OwnerRead → OwnerReply}
    (plain : origin.publicationCoverage = false → Plain answer)
    (distinct : (origin.owners.map (·.name)).Nodup) {progress next : Progress codec}
    (sound : progress.Sound origin) (step : MergeStep answer progress next) :
    next.Sound origin := by
  have scope := step.scope.trans sound.scope
  have names := step.names.trans sound.names
  have nodup := sound.names.symm ▸ distinct
  obtain ⟨turned, calls, few, owners⟩ := sound.reads
  cases step with
  | @finish left right position split exhausted last =>
    rw [split] at owners
    refine ⟨scope, names, ⟨turned, calls, few, ?_⟩, sound.self⟩
    exact forall_mem_replace owners (fun _ _ same => same)
      ((owners position (by simp)).finish nil last)
  | @refill left right position page split exhausted more room read =>
    rw [split] at owners nodup
    obtain ⟨below, proper, suits, same⟩ := refill_sound plain sound.scope read
    have one : turned = 0 := by omega
    refine ⟨scope, names, ⟨turned + 1, by simp [calls, Nat.add_assoc], by omega, ?_⟩, sound.self⟩
    refine forall_mem_replace owners (fun other member here => ?_) ?_
    · dsimp only
      rw [Function.update_of_ne (name_ne_of_mem nodup member)]
      exact here.later
    · change (position.refilled page).Sound origin (turned + 1)
        (Function.update progress.pages position.name page position.name)
      rw [Function.update_self]
      exact (owners position (by simp)).refilled nil exhausted.pending more below proper suits same
  | @take left right position item split known pending head least self =>
    rw [split] at owners
    refine ⟨scope, names, ⟨turned, calls, few, ?_⟩, sound.self⟩
    exact forall_mem_replace owners (fun _ _ same => same)
      ((owners position (by simp)).consume head)
  | takeSelf => exact ⟨scope, names, ⟨turned, calls, few, owners⟩, fun _ => rfl⟩

theorem Progress.Sound.steps (nil : canonicalPublicationToken codec "" = false)
    {origin : CursorFrame} {answer : OwnerRead → OwnerReply}
    (plain : origin.publicationCoverage = false → Plain answer)
    (distinct : (origin.owners.map (·.name)).Nodup) {progress final : Progress codec}
    (sound : progress.Sound origin) (steps : MergeSteps answer progress final) :
    final.Sound origin := by
  induction steps with
  | refl => exact sound
  | tail _ step ih => exact ih.step nil plain distinct step

theorem Progress.sound_start {frame : CursorFrame} {pages : Producer → CursorOwnerPage codec}
    (proper : frame.Proper codec)
    (read : ∀ position ∈ frame.owners, sameOwnerPage position (pages position.name) = true ∧
      (pages position.name).Proper ∧ (pages position.name).Suits frame position.name) :
    (⟨frame, pages, 2, [], false⟩ : Progress codec).Sound frame := by
  refine ⟨rfl, rfl, ⟨0, rfl, Nat.zero_le _, fun position member => ?_⟩, id⟩
  obtain ⟨same, page, suits⟩ := read position member
  have valid := proper.positions position member
  simp only [OwnerPosition.valid, Bool.and_eq_true, decide_eq_true_eq] at valid
  exact ⟨sameOwnerPage_eq_true.mp same, page, suits, proper.fits position member, valid.1.1.1.2,
    position, member, rfl, .refl position⟩

theorem filter_name {owners : List OwnerPosition} (names : (owners.map (·.name)).Nodup)
    {position : OwnerPosition} (member : position ∈ owners) :
    owners.filter (fun other => decide (other.name = position.name)) = [position] := by
  induction owners with
  | nil => cases member
  | cons head rest ih =>
    rw [List.map_cons, List.nodup_cons] at names
    rcases List.mem_cons.mp member with rfl | later
    · have others : rest.filter (fun other => decide (other.name = position.name)) = [] := by
        rw [List.filter_eq_nil_iff]
        intro other there same
        exact names.1 (of_decide_eq_true same ▸ List.mem_map_of_mem there)
      rw [List.filter_cons_of_pos (by simp), others]
    · have differ : head.name ≠ position.name := by
        intro same
        exact names.1 (same ▸ List.mem_map_of_mem later)
      rw [List.filter_cons_of_neg (by simpa using differ), ih names.2 later]

/-- What a merge leaves continues the frame it started from. -/
theorem Progress.Sound.finish (nil : canonicalPublicationToken codec "" = false)
    {origin : CursorFrame} (proper : origin.Proper codec) {progress : Progress codec}
    (sound : progress.Sound origin) :
    progress.finish.frame.Proper codec ∧
      ∀ number, sameCursorScope origin { progress.finish.frame with pageNumber := number } =
        true := by
  obtain ⟨turned, -, few, owners⟩ := sound.reads
  have settled : ∀ position ∈ progress.finish.frame.owners, ∃ page : CursorOwnerPage codec,
      position.Sound origin turned page := by
    intro position member
    obtain ⟨before, there, rfl⟩ := List.mem_map.mp member
    exact ⟨_, (owners before there).settle nil⟩
  have names : progress.finish.frame.owners.map (·.name) = origin.owners.map (·.name) := by
    rw [← sound.names]
    change (progress.frame.owners.map _).map _ = _
    rw [List.map_map]
    refine List.map_congr_left fun position _ => ?_
    simp only [Function.comp, OwnerPosition.settle]
    split <;> rfl
  have scope : progress.finish.frame.scope = origin.scope := sound.scope
  have same := scope
  simp only [CursorFrame.scope, CursorFrame.mk.injEq, true_and] at same
  obtain ⟨profile, filters, limit, number, status, action, part, coverage, parent, base⟩ := same
  constructor
  · refine ⟨profile.trans proper.profile, limit.symm ▸ proper.limit, number.trans_le proper.number,
      ?_, filters.symm ▸ proper.query, scope.symm ▸ proper.capture, fun position member => ?_,
      names.symm ▸ proper.names, fun position member => ?_⟩
    · rw [← proper.two]
      simpa using congrArg List.length names
    · obtain ⟨page, here⟩ := settled position member
      have fits := here.fits
      unfold OwnerPosition.Fits OwnerPosition.covered publicationOwnerParent at fits ⊢
      rwa [coverage, base]
    · obtain ⟨page, here⟩ := settled position member
      exact here.valid
  · intro number
    have continued : ∀ previous ∈ origin.owners, ∃ current, (progress.finish.frame.owners.filter
        fun current => decide (current.name = previous.name)).getLast? = some current ∧
        previous.continues current = true := by
      intro previous member
      have there := List.mem_map_of_mem member (f := OwnerPosition.name)
      rw [← names] at there
      obtain ⟨current, here, called⟩ := List.mem_map.mp there
      obtain ⟨page, currentSound⟩ := settled current here
      obtain ⟨source, sourceMember, sourceName, continued⟩ := currentSound.source
      have alone := filter_name (names.symm ▸ proper.names) here
      obtain rfl : source = previous :=
        List.inj_on_of_nodup_map proper.names sourceMember member (sourceName.trans called)
      rw [called] at alone
      rw [alone]
      exact ⟨current, rfl, continued.continues few⟩
    have consumed : origin.selfConsumed = false ∨ progress.finish.frame.selfConsumed = true := by
      cases taken : origin.selfConsumed with
      | false => exact .inl rfl
      | true => exact .inr (sound.self taken)
    simp only [sameCursorScope, Bool.and_eq_true, decide_eq_true_eq, Bool.or_eq_true,
      Bool.not_eq_true', List.all_eq_true]
    refine ⟨⟨⟨⟨coverage.symm, parent.symm, base.symm, filters.symm, profile.symm, limit.symm,
      status.symm, action.symm⟩, (by rw [part]; cases origin.partialResult <;> simp)⟩, consumed⟩,
      fun previous member => ?_⟩
    obtain ⟨current, last, continues⟩ := continued previous member
    rw [last]
    exact continues

theorem CursorFrame.Proper.bookmark {frame : CursorFrame} (proper : frame.Proper codec)
    (coverage : frame.publicationCoverage = true) {owner : OwnerPosition}
    (member : owner ∈ frame.owners) (done : owner.done = true) :
    owner.publicationBookmark ≠ "" := by
  have fits := proper.fits owner member
  intro absent
  simp [OwnerPosition.Fits, coverage, OwnerPosition.covered, absent, done] at fits

theorem Composition.next_eq_some {composed : Composition} {next : CursorFrame}
    (made : composed.next = .ok (some next)) :
    composed.frame.pageNumber < 200 ∧
      next = { composed.frame with pageNumber := composed.frame.pageNumber + 1 } := by
  unfold Composition.next at made
  split at made
  next =>
    simp only [bind_eq_ok, ensure_eq_ok, pure_eq_ok, Option.some.injEq] at made
    obtain ⟨_, room, same⟩ := made
    exact ⟨room, same.symm⟩
  next => cases made

/-- A page that is not committed conflicts with its node over the next frame only. -/
theorem commitIncidentCursorPage_ne_conflict {store : Store codec} {locked : Bool} {now : Time}
    {candidate token : UUID} {binding : CursorBinding} {page : CursorPage}
    {next : Option CursorFrame} {node : CursorNodeRow} {session : CursorSession}
    (bound : validCursorBinding binding = true)
    (found : store.findNode token binding = some (node, session)) (pending : node.pageDigest = none)
    (checked : validateNext codec next ≠ .error .conflict)
    (continued : ∀ frame, next = some frame →
      frame.pageNumber = node.pageNumber + 1 ∧ sameCursorScope node.metadata frame = true) :
    store.commitIncidentCursorPage locked now candidate token binding (.of page) next ≠
      .error .conflict := by
  intro refused
  have sized : (PageDigest.of page).sized = true := rfl
  cases next with
  | none =>
    simp [Store.commitIncidentCursorPage, bind_eq_error, ensure_eq_error, demand_eq_error,
      demand_eq_ok, pure_ne_error, sized, bound, found, pending, checked,
      -bind_pure_comp] at refused
  | some frame =>
    simp [Store.commitIncidentCursorPage, Store.cursorNodeCapacity, bind_eq_error,
      ensure_eq_error, demand_eq_error, demand_eq_ok, pure_ne_error, sized, bound, found,
      pending, checked, continued frame rfl, -bind_pure_comp] at refused

/-- The composer passes the checks on its frames: the frame of the next page is refused for its
size only and continues the frame of the node, so a page that was not committed is not in
conflict with its node, and the finalizer is reached with finished owners. -/
theorem compose_never_fenced (nil : canonicalPublicationToken codec "" = false)
    {frame : CursorFrame} (valid : validateCursorFrame codec frame = .ok ())
    {pages : Producer → CursorOwnerPage codec} {answer : OwnerRead → OwnerReply}
    (read : ∀ position ∈ frame.owners, sameOwnerPage position (pages position.name) = true ∧
      (∃ now body, decodeCursorOwnerPage codec now body position.name =
        .ok (pages position.name)) ∧
      checkCoverage frame position.name (pages position.name) = .ok () ∧
      (frame.publicationCoverage = false → (pages position.name).publicationBookmark = "" ∧
        (pages position.name).parentBookmark = ""))
    (plain : frame.publicationCoverage = false → ∀ read body, (answer read).body = some body →
      body.publicationBookmark = "" ∧ body.parentBookmark = "")
    {composed : Composition} (run : (compose frame pages).run answer = .ok composed) :
    (∀ next, composed.next = .ok (some next) →
      validateCursorFrame codec next = ensure (codec.frameSize next ≤ 16 * 1024) .capacity ∧
      next.pageNumber = frame.pageNumber + 1 ∧ sameCursorScope frame next = true) ∧
    (∀ next (store : Store codec) locked now candidate token binding node session page,
      composed.next = .ok next → store.findNode token binding = some (node, session) →
      node.metadata = frame → node.pageNumber = frame.pageNumber → node.pageDigest = none →
      validCursorBinding binding = true →
      store.commitIncidentCursorPage locked now candidate token binding (.of page) next ≠
        .error .conflict) ∧
    (composed.final = true →
      validateCursorFrame codec composed.frame =
        ensure (codec.frameSize composed.frame ≤ 16 * 1024) .capacity ∧
      ∀ owner ∈ composed.frame.owners, owner.done = true ∧ owner.publicationBookmark ≠ "") := by
  have proper := validateCursorFrame_proper valid
  have start := Progress.sound_start proper fun position member => by
    obtain ⟨same, ⟨now, body, decoded⟩, covered, bare⟩ := read position member
    exact ⟨same, decodeCursorOwnerPage_proper decoded, covered, bare⟩
  obtain ⟨final, steps, -, rfl⟩ := compose_steps run proper.names
  have sound := start.steps nil plain proper.names steps
  obtain ⟨left, continues⟩ := Progress.Sound.finish nil proper sound
  replace left : final.finish.frame.Proper codec := left
  have number : final.finish.frame.pageNumber = frame.pageNumber :=
    (compose_alike run proper.names).pageNumber
  have admitted : ∀ next, final.finish.next = .ok (some next) →
      validateCursorFrame codec next = ensure (codec.frameSize next ≤ 16 * 1024) .capacity ∧
      next.pageNumber = frame.pageNumber + 1 ∧ sameCursorScope frame next = true := by
    intro next made
    obtain ⟨room, rfl⟩ := Composition.next_eq_some made
    exact ⟨CursorFrame.Proper.validate { left with number := Nat.succ_le_of_lt room },
      congrArg (· + 1) number, continues _⟩
  refine ⟨admitted, ?_, fun last => ⟨left.validate, fun owner member => ?_⟩⟩
  · rintro next store locked now candidate token binding node session page made found rfl same
      pending bound
    refine commitIncidentCursorPage_ne_conflict bound found pending ?_ ?_
    · cases next with
      | none => exact pure_ne_error
      | some continued =>
        intro refused
        have sized := (admitted continued made).1.symm.trans refused
        cases (ensure_eq_error.mp sized).2
    · rintro continued rfl
      rw [same]
      exact (admitted continued made).2
  · obtain ⟨coverage, ended⟩ := final_eq_true last
    have done : owner.done = true := by
      have left : final.finish.frame.more = false := ended
      simp only [CursorFrame.more, Bool.or_eq_false_iff, List.any_eq_false,
        Bool.not_eq_true', Bool.not_eq_false] at left
      exact left.2 owner member
    exact ⟨done, left.bookmark coverage member done⟩

theorem publicationPage_decoded (name : Producer) (resumed : Bool) :
    decodeCursorOwnerPage sampleCodec 0 (publicationBody name resumed) name =
      .ok (publicationPage name resumed) := by
  have accepted : (decodeCursorOwnerPage sampleCodec 0 (publicationBody name resumed)
      name).toOption.isSome = true := by
    cases name <;> cases resumed <;> decide +kernel
  unfold publicationPage
  cases decoded : decodeCursorOwnerPage sampleCodec 0 (publicationBody name resumed) name with
  | ok page => rfl
  | error error =>
    rw [decoded] at accepted
    cases accepted

def publicationFrame : CursorFrame :=
  (blankFrame ∅ 1 true none none).captured (.degraded, true) (publicationPage .gateway false)
    (publicationPage .ingestion false)

theorem compose_never_fenced_first :
    ∃ composed next, (compose publicationFrame (publicationPage · false)).run publicationAnswer =
        .ok composed ∧ composed.next = .ok (some next) ∧
      sameCursorScope publicationFrame next = true := by
  have continued : ((compose publicationFrame (publicationPage · false)).run
      publicationAnswer).toOption.any (fun composed =>
        decide (composed.more = true ∧ composed.frame.pageNumber < 200)) = true := by
    decide +kernel
  cases ran : (compose publicationFrame (publicationPage · false)).run publicationAnswer with
  | error error =>
    rw [ran] at continued
    cases continued
  | ok composed =>
    rw [ran] at continued
    obtain ⟨more, room⟩ := of_decide_eq_true continued
    have made : composed.next = .ok (some { composed.frame with
        pageNumber := composed.frame.pageNumber + 1 }) := by
      rw [Composition.next, if_pos more, ensure, if_pos room]
      rfl
    refine ⟨composed, _, rfl, made, ?_⟩
    have fenced := compose_never_fenced (by decide +kernel) (by decide +kernel) ?_
      (fun plain => absurd plain (by decide)) ran
    · exact (fenced.1 _ made).2.2
    · intro position member
      rcases List.mem_pair.mp member with rfl | rfl
      · exact ⟨by decide +kernel, ⟨0, _, publicationPage_decoded .gateway false⟩,
          by decide +kernel, fun plain => absurd plain (by decide)⟩
      · exact ⟨by decide +kernel, ⟨0, _, publicationPage_decoded .ingestion false⟩,
          by decide +kernel, fun plain => absurd plain (by decide)⟩

end OufMcp.Cursor
